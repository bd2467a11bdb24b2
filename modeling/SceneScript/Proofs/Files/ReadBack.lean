import SceneScript.Files.Directory

namespace SceneScript.Directory

theorem lookup_cons_eq (p q : Place) (x : Entry) (entries : List (Place × Entry)) :
    List.lookup q ((p, x) :: entries) = if q = p then some x else entries.lookup q := by
  rw [List.lookup_cons]
  split
  · rename_i heq
    rw [if_pos (eq_of_beq heq)]
  · rename_i hne
    rw [if_neg (ne_of_beq_false hne)]

theorem lookup_put (place q : Place) (entry : Entry) (entries : List (Place × Entry)) :
    (put place entry entries).lookup q = if q = place then some entry else entries.lookup q := by
  induction entries with
  | nil => exact lookup_cons_eq place q entry []
  | cons e entries ih =>
    obtain ⟨p, x⟩ := e
    unfold put
    split
    · rename_i hp
      simp only [lookup_cons_eq, hp]
      split <;> rfl
    · rename_i hp
      simp only [lookup_cons_eq, ih]
      by_cases hq : q = place
      · subst hq
        simp [Ne.symm hp]
      · simp [hq]

theorem lookup_set {place : Place} (hne : place ≠ []) (d : Directory) (entry : Entry) (q : Place) :
    Directory.entry? (d.set place entry) q = if q = place then some entry else d.entry? q := by
  cases q with
  | nil => simp [ entry?, Ne.symm hne]
  | cons name names => exact lookup_put place (name :: names) entry d.entries

theorem walk_cons {d : Directory} {here there : Place} {step : Step} {steps : List Step}
    (h : d.walk here (step :: steps) = .ok there) :
    d.entry? here = some .folder ∧
      ∃ next, d.advance here step = .ok next ∧ d.walk next steps = .ok there := by
  unfold walk at h
  split at h
  · rename_i hfolder
    cases hnext : d.advance here step with
    | error e => simp [hnext, bind, Except.bind] at h
    | ok next => exact ⟨hfolder, next, rfl, by simpa [hnext, bind, Except.bind] using h⟩
  · simp at h
  · simp at h

theorem walk_of_folder {d : Directory} {here next : Place} {step : Step}
    (hfolder : d.entry? here = some .folder) (hnext : d.advance here step = .ok next)
    (steps : List Step) : d.walk here (step :: steps) = d.walk next steps := by
  simp [walk, hfolder, hnext, bind, Except.bind]

theorem advance_set {d : Directory} {place here next : Place} (hne : place ≠ []) (entry : Entry)
    {step : Step} (h : d.advance here step = .ok next) :
    (d.set place entry).advance here step = .ok next := by
  cases step with
  | up => exact h
  | enter name =>
    simp only [advance] at h ⊢
    split at h
    · simp at h
    · rename_i hlong
      split at h
      · rename_i hsome
        have hkept : (Directory.entry? (d.set place entry) (here ++ [name])).isSome := by
          rw [lookup_set hne]
          split
          · rfl
          · exact hsome
        rw [if_neg hlong, if_pos hkept]
        exact h
      · simp at h

theorem walk_set {d : Directory} {place there here : Place} (hne : place ≠ [])
    (hplace : d.entry? place ≠ some .folder) (entry : Entry) {steps : List Step}
    (h : d.walk here steps = .ok there) : (d.set place entry).walk here steps = .ok there := by
  -- A walk goes on from folders only, so the place is none of those it has left.
  induction steps generalizing here with
  | nil => exact h
  | cons step steps ih =>
    obtain ⟨hfolder, next, hnext, hrest⟩ := walk_cons h
    have hother : here ≠ place := by
      rintro rfl
      exact hplace hfolder
    have hkept : Directory.entry? (d.set place entry) here = some .folder := by
      rw [lookup_set hne, if_neg hother, hfolder]
    rw [walk_of_folder hkept (advance_set hne entry hnext)]
    exact ih hrest

theorem walk_append {d : Directory} {here there : Place} {steps : List Step}
    (h : d.walk here steps = .ok there) (more : List Step) :
    d.walk here (steps ++ more) = d.walk there more := by
  induction steps generalizing here with
  | nil =>
    obtain rfl : here = there := Except.ok.inj h
    rfl
  | cons step steps ih =>
    obtain ⟨hfolder, next, hnext, hrest⟩ := walk_cons h
    rw [List.cons_append, walk_of_folder hfolder hnext]
    exact ih hrest

theorem steps_of_fileName {p : Path} {name : String} (h : p.fileName? = some name) :
    p.steps = p.parent.steps ++ [.enter name] := by
  unfold Path.fileName? at h
  split at h
  · rename_i last hlast
    obtain rfl : last = name := Option.some.inj h
    obtain ⟨front, hfront⟩ := List.getLast?_eq_some_iff.mp hlast
    simp [Path.parent, hfront]
  · simp at h

theorem vacancy_cases {d : Directory} {p : Path} {name : String} {place : Place}
    (h : d.vacancy p name = .ok place) :
    ∃ folder, d.resolve p.parent = .ok folder ∧ d.entry? folder = some .folder ∧
      ¬greatestName < Text.byteLength name.toList ∧ place = folder ++ [name] := by
  unfold vacancy at h
  cases hparent : d.resolve p.parent with
  | error e => simp [hparent, bind, Except.bind] at h
  | ok folder =>
    simp only [hparent, bind, Except.bind] at h
    split at h
    · rename_i hfolder
      split at h
      · simp at h
      · rename_i hshort
        exact ⟨folder, rfl, hfolder, hshort, (Except.ok.inj h).symm⟩
    · simp at h
    · simp at h

theorem write_cases {d written : Directory} {path s : String} (h : d.write path s = .ok written) :
    refused? path = none ∧ (Path.ofText path).ending = .name ∧
      ∃ name folder, (Path.ofText path).fileName? = some name ∧
        d.resolve (Path.ofText path).parent = .ok folder ∧ d.entry? folder = some .folder ∧
        ¬greatestName < Text.byteLength name.toList ∧
        d.entry? (folder ++ [name]) ≠ some .folder ∧
        written = d.set (folder ++ [name]) (.file (.text s)) := by
  unfold write at h
  split at h
  · simp at h
  · rename_i hpath
    simp only at h
    split at h
    · rename_i name hname hending
      cases hvacancy : d.vacancy (Path.ofText path) name with
      | error e => simp [hvacancy, bind, Except.bind] at h
      | ok place =>
        obtain ⟨folder, hparent, hfolder, hshort, rfl⟩ := vacancy_cases hvacancy
        simp only [hvacancy, bind, Except.bind] at h
        split at h
        · simp at h
        · rename_i hplace
          refine ⟨hpath, hending, name, folder, hname, hparent, hfolder, hshort, hplace, ?_⟩
          exact (Except.ok.inj h).symm
    · cases hparent : d.resolve (Path.ofText path).parent <;>
        simp [hparent, bind, Except.bind] at h
    · cases hplace : d.resolve (Path.ofText path) with
      | error e => simp [hplace, bind, Except.bind] at h
      | ok place =>
        simp only [hplace, bind, Except.bind] at h
        split at h <;> simp at h

theorem resolve_set {d : Directory} {p : Path} {name : String} {folder : Place}
    (hname : p.fileName? = some name) (hparent : d.resolve p.parent = .ok folder)
    (hfolder : d.entry? folder = some .folder) (hshort : ¬greatestName < Text.byteLength name.toList)
    (hplace : d.entry? (folder ++ [name]) ≠ some .folder) (entry : Entry) :
    (d.set (folder ++ [name]) entry).resolve p = .ok (folder ++ [name]) := by
  have hne : folder ++ [name] ≠ [] := by simp
  have hparent' := walk_set hne hplace entry hparent
  have hother : folder ≠ folder ++ [name] := by simp
  have hkept : Directory.entry? (d.set (folder ++ [name]) entry) folder = some .folder := by
    rw [lookup_set hne, if_neg hother, hfolder]
  have hlast : (d.set (folder ++ [name]) entry).advance folder (.enter name) =
      .ok (folder ++ [name]) := by
    simp [advance, hshort, lookup_set hne]
  rw [resolve, steps_of_fileName hname]
  exact (walk_append hparent' [.enter name]).trans (walk_of_folder hkept hlast [])

theorem read_write {d written : Directory} {path s : String} (h : d.write path s = .ok written) :
    written.read path = .ok s := by
  obtain ⟨hpath, hending, name, folder, hname, hparent, hfolder, hshort, hplace, rfl⟩ :=
    write_cases h
  have hne : folder ++ [name] ≠ [] := by simp
  have hresolve := resolve_set hname hparent hfolder hshort hplace (.file (.text s))
  simp [read, hpath, hresolve, bind, Except.bind, lookup_set hne, hending]

theorem read_save {d written : Directory} {path s : String}
    (h : d.save path s = (written, .ok ())) : written.read path = .ok s := by
  simp only [save] at h
  split at h
  · simp at h
  · split at h
    · rename_i made _
      cases hwrite : made.write path s with
      | error e => simp [hwrite] at h
      | ok w =>
        obtain rfl : w = written := by simpa [hwrite] using h
        exact read_write hwrite
    · rename_i failed hfailed
      exact absurd h (hfailed written)

end SceneScript.Directory
