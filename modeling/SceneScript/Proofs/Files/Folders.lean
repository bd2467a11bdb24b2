import SceneScript.Proofs.Files.Sound

namespace SceneScript.Directory

/-- The second tree comes from the first by making folders, one after another, in places of at
most `depth` names. -/
inductive Made (depth : Nat) (d : Directory) : Directory → Prop
  | refl : Made depth d d
  | folder {e : Directory} {place : Place} {name : String} :
      Made depth d e → e.entry? place = some .folder → e.entry? (place ++ [name]) = none →
      place.length < depth → Made depth d (e.set (place ++ [name]) .folder)

namespace Made

variable {depth : Nat} {d e : Directory}

theorem home (h : Made depth d e) : e.home = d.home := by
  induction h with
  | refl => rfl
  | folder _ _ _ _ ih => exact ih

theorem trans {f : Directory} (h : Made depth d e) (h' : Made depth e f) : Made depth d f := by
  induction h' with
  | refl => exact h
  | folder _ hfolder hnone hdepth ih => exact .folder ih hfolder hnone hdepth

theorem mono {deeper : Nat} (h : Made depth d e) (hle : depth ≤ deeper) : Made deeper d e := by
  induction h with
  | refl => exact .refl
  | folder _ hfolder hnone hdepth ih =>
    exact .folder ih hfolder hnone (Nat.lt_of_lt_of_le hdepth hle)

theorem entry?_cases (h : Made depth d e) (q : Place) :
    e.entry? q = d.entry? q ∨
      d.entry? q = none ∧ e.entry? q = some .folder ∧ q.length ≤ depth := by
  induction h with
  | refl => exact .inl rfl
  | @folder e place name _ _ hnone hdepth ih =>
    rw [lookup_set (by simp)]
    split
    · rename_i hq
      subst hq
      have hlength : (place ++ [name]).length ≤ depth := by
        simpa using Nat.succ_le_of_lt hdepth
      obtain ih | ⟨-, ih, -⟩ := ih
      · exact .inr ⟨ih ▸ hnone, rfl, hlength⟩
      · simp [hnone] at ih
    · exact ih

theorem content? (h : Made depth d e) (q : Place) : e.content? q = d.content? q := by
  obtain hq | ⟨hnone, hfolder, -⟩ := h.entry?_cases q
  · rw [Directory.content?, hq]
    rfl
  · simp [Directory.content?, hnone, hfolder]

theorem sound {t : Tree} (h : Made depth t.toDirectory e) : e.Sound := by
  induction h with
  | refl => exact t.sound
  | @folder e _ _ _ hfolder hnone _ ih =>
    exact Tree.sound_set (t := ⟨e, ih⟩) .folder hfolder (by simp [hnone])

end Made

theorem walk_length {d : Directory} {here there : Place} {steps : List Step}
    (h : d.walk here steps = .ok there) : there.length ≤ here.length + steps.length := by
  induction steps generalizing here with
  | nil =>
    obtain rfl : here = there := Except.ok.inj h
    simp
  | cons step steps ih =>
    obtain ⟨-, next, hnext, hrest⟩ := walk_cons h
    have hlength : next.length ≤ here.length + 1 := by
      cases step with
      | up =>
        obtain rfl : here.dropLast = next := Except.ok.inj hnext
        simp only [List.length_dropLast]
        omega
      | enter name =>
        obtain ⟨-, -, rfl⟩ := advance_enter hnext
        simp
    have := ih hrest
    simp only [List.length_cons]
    omega

theorem makeFolder_cases {d made : Directory} {p : Path} (h : d.makeFolder p = .ok made) :
    ∃ name folder, p.fileName? = some name ∧ d.resolve p.parent = .ok folder ∧
      d.entry? folder = some .folder ∧ d.entry? (folder ++ [name]) = none ∧
      ¬greatestName < Text.byteLength name.toList ∧
      made = d.set (folder ++ [name]) .folder := by
  unfold makeFolder at h
  split at h
  · rename_i name hname
    cases hvacancy : d.vacancy p name with
    | error e => simp [hvacancy, bind, Except.bind] at h
    | ok place =>
      obtain ⟨folder, hparent, hfolder, hshort, rfl⟩ := vacancy_cases hvacancy
      simp only [hvacancy, bind, Except.bind] at h
      split at h
      · simp at h
      · rename_i hnone
        exact ⟨name, folder, hname, hparent, hfolder, by simpa using hnone, hshort,
          (Except.ok.inj h).symm⟩
  · cases hplace : d.resolve p <;> simp [hplace, bind, Except.bind] at h

theorem isFolder_iff {d : Directory} {p : Path} :
    d.isFolder p = true ↔ ∃ place, d.resolve p = .ok place ∧ d.entry? place = some .folder := by
  unfold isFolder
  cases d.resolve p <;> simp

theorem ensureFolder_of_isFolder {d : Directory} {p : Path} (h : d.isFolder p = true) :
    d.ensureFolder p = (d, .ok ()) := by
  unfold ensureFolder
  cases hmake : d.makeFolder p with
  | error e => simp [h]
  | ok made =>
    obtain ⟨name, folder, hname, hparent, hfolder, hnone, -, -⟩ := makeFolder_cases hmake
    obtain ⟨place, hplace, hentry⟩ := isFolder_iff.mp h
    rw [resolve, steps_of_fileName hname] at hplace
    obtain ⟨folder', hwalk, -, hlast⟩ := walk_concat hplace
    obtain rfl : folder = folder' := Except.ok.inj (hparent.symm.trans hwalk)
    obtain ⟨-, hsome, -⟩ := advance_enter hlast
    simp [hnone] at hsome

theorem ensureFolder_cases (d : Directory) (p : Path) :
    (∃ made, d.makeFolder p = .ok made ∧ d.ensureFolder p = (made, .ok ())) ∨
    (d.isFolder p = true ∧ d.ensureFolder p = (d, .ok ())) ∨
    ∃ e, d.isFolder p = false ∧ d.makeFolder p = .error e ∧ d.ensureFolder p = (d, .error e) := by
  cases hmake : d.makeFolder p with
  | ok made => exact .inl ⟨made, rfl, by simp [ensureFolder, hmake]⟩
  | error e =>
    cases hp : d.isFolder p with
    | true => exact .inr (.inl ⟨rfl, ensureFolder_of_isFolder hp⟩)
    | false => exact .inr (.inr ⟨e, rfl, rfl, by simp [ensureFolder, hmake, hp]⟩)

def stepped (absolute : Bool) (steps : List Step) : Path :=
  ⟨absolute, steps.reverse, .name⟩

theorem stepped_reverse_parent (p : Path) :
    stepped p.absolute p.parent.steps.reverse = p.parent := by
  simp [stepped, Path.parent]

theorem makeFolder_made {d made : Directory} {p : Path} (h : d.makeFolder p = .ok made) :
    Made ((d.start p).length + p.steps.length) d made := by
  obtain ⟨name, folder, hname, hparent, hfolder, hnone, -, rfl⟩ := makeFolder_cases h
  have hlength := walk_length hparent
  have hsteps := congrArg List.length (steps_of_fileName hname)
  rw [List.length_append, List.length_singleton] at hsteps
  refine .folder .refl hfolder hnone ?_
  have hstart : d.start p.parent = d.start p := rfl
  rw [hstart] at hlength
  omega

theorem ensureFolder_made (d : Directory) (p : Path) :
    Made ((d.start p).length + p.steps.length) d (d.ensureFolder p).1 := by
  obtain ⟨made, hmake, h⟩ | ⟨-, h⟩ | ⟨e, -, -, h⟩ := ensureFolder_cases d p
  · rw [h]
    exact makeFolder_made hmake
  · rw [h]
    exact .refl
  · rw [h]
    exact .refl

theorem makeFolders_cons (d : Directory) (absolute : Bool) (step : Step) (steps : List Step) :
    (d.makeFolders absolute (step :: steps) = d.ensureFolder (stepped absolute (step :: steps)) ∧
      (d.ensureFolder (stepped absolute (step :: steps))).2 ≠ .error .notFound) ∨
    (∃ made, d.makeFolders absolute steps = (made, .ok ()) ∧
      d.makeFolders absolute (step :: steps) =
        made.ensureFolder (stepped absolute (step :: steps))) ∨
    ∃ made e, d.makeFolders absolute steps = (made, .error e) ∧
      d.makeFolders absolute (step :: steps) = (made, .error e) := by
  unfold stepped
  simp only [makeFolders]
  split
  · cases hrest : d.makeFolders absolute steps with
    | mk made result =>
      cases result with
      | ok u => exact .inr (.inl ⟨made, rfl, rfl⟩)
      | error e => exact .inr (.inr ⟨made, e, rfl, rfl⟩)
  · rename_i hother
    exact .inl ⟨rfl, fun h => hother _ (Prod.ext rfl h)⟩

theorem makeFolders_made (d : Directory) (absolute : Bool) (steps : List Step) :
    Made ((d.start (stepped absolute steps)).length + steps.length) d
      (d.makeFolders absolute steps).1 := by
  have hlength (e : Directory) (he : e.home = d.home) (steps : List Step) :
      (e.start (stepped absolute steps)).length + (stepped absolute steps).steps.length =
        (d.start (stepped absolute [])).length + steps.length := by
    simp only [start, stepped, he, List.length_reverse]
    rfl
  induction steps with
  | nil => exact .refl
  | cons step steps ih =>
    have hstep := ensureFolder_made d (stepped absolute (step :: steps))
    rw [hlength d rfl] at hstep
    obtain ⟨h, -⟩ | ⟨made, hrest, h⟩ | ⟨made, e, hrest, h⟩ := makeFolders_cons d absolute step steps
    · rw [h]
      exact hstep
    · rw [hrest] at ih
      have hlast := ensureFolder_made made (stepped absolute (step :: steps))
      rw [hlength made ih.home] at hlast
      rw [h]
      exact (ih.mono (Nat.le_succ _)).trans hlast
    · rw [hrest] at ih
      rw [h]
      exact ih.mono (Nat.le_succ _)

theorem isFolder_of_cons {d : Directory} {absolute : Bool} {step : Step} {steps : List Step}
    (h : d.isFolder (stepped absolute (step :: steps)) = true) :
    d.isFolder (stepped absolute steps) = true := by
  obtain ⟨place, hplace, -⟩ := isFolder_iff.mp h
  simp only [resolve, stepped, List.reverse_cons] at hplace
  obtain ⟨folder, hwalk, hfolder, -⟩ := walk_concat hplace
  exact isFolder_iff.mpr ⟨folder, hwalk, hfolder⟩

theorem makeFolders_of_isFolder {d : Directory} {absolute : Bool} {steps : List Step}
    (h : d.isFolder (stepped absolute steps) = true) :
    d.makeFolders absolute steps = (d, .ok ()) := by
  cases steps with
  | nil => rfl
  | cons step steps =>
    have hensure := ensureFolder_of_isFolder h
    unfold stepped at hensure
    simp only [makeFolders, hensure]

theorem isFolder_of_makeFolders_error {d made : Directory} {absolute : Bool} {steps : List Step}
    {e : FileError} (h : d.makeFolders absolute steps = (made, .error e)) :
    made.isFolder (stepped absolute steps) = false := by
  have hensure {d made : Directory} {p : Path} (h : d.ensureFolder p = (made, .error e)) :
      made.isFolder p = false := by
    obtain ⟨_, -, hc⟩ | ⟨-, hc⟩ | ⟨_, hp, -, hc⟩ := ensureFolder_cases d p
    · simp [hc] at h
    · simp [hc] at h
    · obtain ⟨rfl, -⟩ := Prod.ext_iff.mp (hc.symm.trans h)
      exact hp
  induction steps generalizing made with
  | nil => simp [makeFolders] at h
  | cons step steps ih =>
    obtain ⟨hc, -⟩ | ⟨_, -, hc⟩ | ⟨_, _, hrest, hc⟩ := makeFolders_cons d absolute step steps
    · exact hensure (hc.symm.trans h)
    · exact hensure (hc.symm.trans h)
    · have hparent := ih (hrest.trans (hc.symm.trans h))
      cases hp : made.isFolder (stepped absolute (step :: steps)) with
      | false => rfl
      | true => rw [isFolder_of_cons hp] at hparent; exact absurd hparent (by decide)

theorem save_cases (d : Directory) (path s : String) :
    ∃ made, Made ((d.start (Path.ofText path)).length + (Path.ofText path).parent.steps.length)
        d made ∧
      (d.isFolder (Path.ofText path).parent = true → made = d) ∧
      ((∃ written, made.write path s = .ok written ∧ d.save path s = (written, .ok ())) ∨
      ∃ e, d.save path s = (made, .error e) ∧
        (made = d ∨ made.isFolder (Path.ofText path).parent = false ∨
          made.write path s = .error e)) := by
  have hstepped := stepped_reverse_parent (Path.ofText path)
  have hmade := makeFolders_made d (Path.ofText path).absolute
    (Path.ofText path).parent.steps.reverse
  have hkept (h : d.isFolder (Path.ofText path).parent = true) :
      d.makeFolders (Path.ofText path).absolute (Path.ofText path).parent.steps.reverse =
        (d, .ok ()) := by
    rw [← hstepped] at h
    exact makeFolders_of_isFolder h
  rw [hstepped, List.length_reverse] at hmade
  cases hnul : (Path.ofText path).parent.steps.any hasNul with
  | true => exact ⟨d, .refl, fun _ => rfl, .inr ⟨.nulInName, by simp [save, hnul], .inl rfl⟩⟩
  | false =>
    refine ⟨_, hmade, fun h => by rw [hkept h], ?_⟩
    cases hfolders : d.makeFolders (Path.ofText path).absolute
        (Path.ofText path).parent.steps.reverse with
    | mk made result =>
      cases result with
      | error e =>
        have hmissing := isFolder_of_makeFolders_error hfolders
        rw [hstepped] at hmissing
        exact .inr ⟨e, by simp [save, hnul, hfolders], .inr (.inl hmissing)⟩
      | ok u =>
        cases hwrite : made.write path s with
        | ok written =>
          exact .inl ⟨written, rfl, by simp [save, hnul, hfolders, hwrite]⟩
        | error e =>
          exact .inr ⟨e, by simp [save, hnul, hfolders, hwrite], .inr (.inr rfl)⟩

theorem content?_save_error {d failed : Directory} {path s : String} {e : FileError}
    (h : d.save path s = (failed, .error e)) (q : Place) : failed.content? q = d.content? q := by
  obtain ⟨made, hmade, -, hc⟩ := save_cases d path s
  obtain ⟨written, -, hsave⟩ | ⟨e', hsave, -⟩ := hc
  · simp [hsave] at h
  · obtain ⟨rfl, -⟩ := Prod.ext_iff.mp (hsave.symm.trans h)
    exact hmade.content? q

theorem write_frame {d written : Directory} {path s : String} (h : d.write path s = .ok written) :
    ∃ place, written.resolve (Path.ofText path) = .ok place ∧
      ∀ q, q ≠ place → written.entry? q = d.entry? q := by
  obtain ⟨-, -, name, folder, hname, hparent, hfolder, hshort, hplace, rfl⟩ := write_cases h
  refine ⟨_, resolve_set hname hparent hfolder hshort hplace _, fun q hq => ?_⟩
  rw [lookup_set (by simp), if_neg hq]

theorem content?_save {d written : Directory} {path s : String}
    (h : d.save path s = (written, .ok ())) :
    ∃ place, written.resolve (Path.ofText path) = .ok place ∧
      ∀ q, q ≠ place → written.content? q = d.content? q := by
  obtain ⟨made, hmade, -, hc⟩ := save_cases d path s
  obtain ⟨written', hwrite, hsave⟩ | ⟨e', hsave, -⟩ := hc
  · obtain rfl : written' = written := congrArg Prod.fst (hsave.symm.trans h)
    obtain ⟨place, hplace, hother⟩ := write_frame hwrite
    refine ⟨place, hplace, fun q hq => ?_⟩
    rw [← hmade.content? q, Directory.content?, hother q hq]
    rfl
  · simp [hsave] at h

end SceneScript.Directory
