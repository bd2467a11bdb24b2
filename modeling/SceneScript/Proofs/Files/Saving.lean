import SceneScript.Proofs.Files.Folders

namespace SceneScript

def Step.isName : Step → Bool
  | .up => false
  | .enter name =>
      Text.byteLength name.toList ≤ Directory.greatestName && !name.toList.contains '\x00'

def Path.isPlain (p : Path) : Bool :=
  p.ending == .name && !p.steps.isEmpty && p.steps.all Step.isName

theorem Step.isName_cases {step : Step} (h : step.isName = true) :
    ∃ name, step = .enter name ∧ ¬Directory.greatestName < Text.byteLength name.toList ∧
      Directory.hasNul step = false := by
  cases step with
  | up => simp [isName] at h
  | enter name =>
    simp only [isName, Bool.and_eq_true, decide_eq_true_eq, Bool.not_eq_true'] at h
    exact ⟨name, rfl, Nat.not_lt.mpr h.1, h.2⟩

theorem Step.exists_names {steps : List Step} (h : steps.all isName = true) :
    ∃ names : List String, steps = names.map .enter ∧
      ∀ n ∈ names, ¬Directory.greatestName < Text.byteLength n.toList := by
  induction steps with
  | nil => exact ⟨[], rfl, by simp⟩
  | cons step steps ih =>
    rw [List.all_cons, Bool.and_eq_true] at h
    obtain ⟨name, rfl, hshort, -⟩ := isName_cases h.1
    obtain ⟨names, rfl, hnames⟩ := ih h.2
    exact ⟨name :: names, rfl, List.forall_mem_cons.mpr ⟨hshort, hnames⟩⟩

theorem Path.exists_names {p : Path} (h : p.isPlain = true) :
    ∃ names name, p.steps = (names ++ [name]).map .enter ∧ p.ending = .name ∧
      (∀ n ∈ names ++ [name], ¬Directory.greatestName < Text.byteLength n.toList) ∧
      p.parent.steps.any Directory.hasNul = false := by
  simp only [isPlain, Bool.and_eq_true, beq_iff_eq, Bool.not_eq_true', List.isEmpty_eq_false_iff]
    at h
  obtain ⟨⟨hending, hne⟩, hall⟩ := h
  obtain ⟨all, hsteps, hshort⟩ := Step.exists_names hall
  cases all using List.reverseRecOn with
  | nil => exact absurd hsteps hne
  | append_singleton names name =>
    refine ⟨names, name, hsteps, hending, hshort, ?_⟩
    rw [List.any_eq_false]
    intro step hstep
    obtain ⟨_, -, -, hnul⟩ :=
      Step.isName_cases (List.all_eq_true.mp hall step ((List.dropLast_sublist _).subset hstep))
    simp [hnul]

namespace Directory

/-- No file stands where names lead from a place, nor on the way. -/
def Clear (d : Directory) (here : Place) (names : List String) : Prop :=
  ∀ front, front <+: names → ∀ content, d.entry? (here ++ front) ≠ some (.file content)

namespace Clear

variable {d e : Directory} {here : Place} {name : String} {names : List String}

theorem behind (h : Clear d here (name :: names)) : Clear d (here ++ [name]) names := by
  intro front hfront content
  rw [List.append_assoc]
  exact h ([name] ++ front) (List.cons_prefix_cons.mpr ⟨rfl, hfront⟩) content

theorem before (h : Clear d here (names ++ [name])) : Clear d here names := fun front hfront =>
  h front (hfront.trans (List.prefix_append names [name]))

theorem made {depth : Nat} (h : Clear d here names) (he : Made depth d e) : Clear e here names := by
  intro front hfront content
  obtain hsame | ⟨-, hfolder, -⟩ := he.entry?_cases (here ++ front)
  · rw [hsame]
    exact h front hfront content
  · simp [hfolder]

end Clear

theorem walk_clear (t : Tree) {here : Place} {names : List String}
    (hhere : t.entry? here = some .folder)
    (hshort : ∀ n ∈ names, ¬greatestName < Text.byteLength n.toList)
    (h : Clear t.toDirectory here names) :
    (t.walk here (names.map .enter) = .ok (here ++ names) ∧
      t.entry? (here ++ names) = some .folder) ∨
    (t.walk here (names.map .enter) = .error .notFound ∧ t.entry? (here ++ names) = none) := by
  induction names generalizing here with
  | nil => exact .inl (by simpa using ⟨rfl, hhere⟩)
  | cons name names ih =>
    have hname := hshort name List.mem_cons_self
    have hnext := h [name] (List.cons_prefix_cons.mpr ⟨rfl, List.nil_prefix⟩)
    rw [List.append_cons]
    cases hentry : t.entry? (here ++ [name]) with
    | none =>
      refine .inr ⟨?_, Tree.none_below hentry names⟩
      simp [walk, hhere, advance, hname, hentry, bind, Except.bind]
    | some entry =>
      have hadvance : t.advance here (.enter name) = .ok (here ++ [name]) := by
        simp [advance, hname, hentry]
      cases entry with
      | file content => exact absurd hentry (hnext content)
      | folder =>
        rw [List.map_cons, walk_of_folder hhere hadvance]
        exact ih hentry (fun n hn => hshort n (List.mem_cons_of_mem name hn)) h.behind

theorem advance_of_walk {d : Directory} {here : Place} {name : String} {steps : List Step}
    (hhere : d.entry? here = some .folder) (hsome : d.entry? (here ++ [name]) ≠ none)
    (hsteps : steps ≠ [])
    (h : ∀ e, d.walk here (.enter name :: steps) = .error e → e = .notFound) :
    d.advance here (.enter name) = .ok (here ++ [name]) ∧
      d.entry? (here ++ [name]) = some .folder := by
  have hadvance : d.advance here (.enter name) = .ok (here ++ [name]) := by
    by_cases hlong : greatestName < Text.byteLength name.toList
    · have hwalk : d.walk here (.enter name :: steps) = .error .nameTooLong := by
        simp [walk, hhere, advance, hlong, bind, Except.bind]
      exact absurd (h _ hwalk) (by decide)
    · simp [advance, hlong, Option.isSome_iff_ne_none.mpr hsome]
  refine ⟨hadvance, ?_⟩
  rw [walk_of_folder hhere hadvance] at h
  obtain ⟨step, steps, rfl⟩ := List.exists_cons_of_ne_nil hsteps
  cases hentry : d.entry? (here ++ [name]) with
  | none => exact absurd hentry hsome
  | some entry =>
    cases entry with
    | folder => rfl
    | file content =>
      have hwalk : d.walk (here ++ [name]) (step :: steps) = .error .notAFolder := by
        simp [walk, hentry]
      exact absurd (h _ hwalk) (by decide)

theorem clear_of_walk {t : Tree} {here : Place} {names : List String}
    {name : String} (hhere : t.entry? here = some .folder)
    (h : ∀ e, t.walk here (names.map .enter ++ [.enter name]) = .error e → e = .notFound) :
    Clear t.toDirectory here names := by
  induction names generalizing here with
  | nil =>
    intro front hfront content
    rw [List.prefix_nil.mp hfront]
    simp [hhere]
  | cons n names ih =>
    intro front hfront content
    obtain rfl | ⟨rest, rfl, hrest⟩ := List.prefix_cons_iff.mp hfront
    · simp [hhere]
    · rw [List.append_cons]
      by_cases hnone : t.entry? (here ++ [n]) = none
      · rw [Tree.none_below hnone]
        simp
      · rw [List.map_cons, List.cons_append] at h
        obtain ⟨hadvance, hfolder⟩ := advance_of_walk hhere hnone (by simp) h
        rw [walk_of_folder hhere hadvance] at h
        exact ih hfolder h rest hrest content

theorem ensureFolder_of_parent {d : Directory} {p : Path} {name : String} {folder : Place}
    (hname : p.fileName? = some name) (hparent : d.resolve p.parent = .ok folder)
    (hfolder : d.entry? folder = some .folder)
    (hshort : ¬greatestName < Text.byteLength name.toList)
    (hfile : ∀ content, d.entry? (folder ++ [name]) ≠ some (.file content)) :
    ∃ made, d.ensureFolder p = (made, .ok ()) := by
  have hvacancy : d.vacancy p name = .ok (folder ++ [name]) := by
    simp [vacancy, hparent, hfolder, hshort, bind, Except.bind]
  cases hentry : d.entry? (folder ++ [name]) with
  | none =>
    refine ⟨d.set (folder ++ [name]) .folder, ?_⟩
    simp [ensureFolder, makeFolder, hname, hvacancy, hentry, bind, Except.bind]
  | some entry =>
    cases entry with
    | file content => exact absurd hentry (hfile content)
    | folder =>
      have hadvance : d.advance folder (.enter name) = .ok (folder ++ [name]) := by
        simp [advance, hshort, hentry]
      have hplace : d.resolve p = .ok (folder ++ [name]) := by
        rw [resolve, steps_of_fileName hname]
        exact (walk_append hparent [.enter name]).trans (walk_of_folder hfolder hadvance [])
      exact ⟨d, ensureFolder_of_isFolder (isFolder_iff.mpr ⟨_, hplace, hentry⟩)⟩

theorem ensureFolder_of_missing {d : Directory} {p : Path} {name : String}
    (hname : p.fileName? = some name) (hparent : d.resolve p.parent = .error .notFound) :
    d.ensureFolder p = (d, .error .notFound) := by
  have hplace : d.isFolder p = false := by
    cases hp : d.isFolder p with
    | false => rfl
    | true =>
      obtain ⟨place, hplace, -⟩ := isFolder_iff.mp hp
      rw [resolve, steps_of_fileName hname] at hplace
      obtain ⟨folder, hfolder, -⟩ := walk_concat hplace
      have : d.resolve p.parent = .ok folder := hfolder
      simp [this] at hparent
  simp [ensureFolder, makeFolder, hname, vacancy, hparent, hplace, bind, Except.bind]

theorem isFolder_of_ensureFolder {d made : Directory} {p : Path}
    (h : d.ensureFolder p = (made, .ok ())) : made.isFolder p = true := by
  obtain ⟨made', hmake, hc⟩ | ⟨hp, hc⟩ | ⟨_, -, -, hc⟩ := ensureFolder_cases d p
  · obtain rfl : made' = made := congrArg Prod.fst (hc.symm.trans h)
    obtain ⟨name, folder, hname, hparent, hfolder, hnone, hshort, rfl⟩ := makeFolder_cases hmake
    have hplace := resolve_set hname hparent hfolder hshort (by simp [hnone]) .folder
    exact isFolder_iff.mpr ⟨_, hplace, by rw [lookup_set (by simp), if_pos rfl]⟩
  · obtain rfl : d = made := congrArg Prod.fst (hc.symm.trans h)
    exact hp
  · simp [hc] at h

theorem isFolder_of_makeFolders {t : Tree} {made : Directory} {absolute : Bool}
    {steps : List Step} (h : t.makeFolders absolute steps = (made, .ok ())) :
    made.isFolder (stepped absolute steps) = true := by
  cases steps with
  | nil =>
    obtain rfl : t.toDirectory = made := congrArg Prod.fst h
    exact isFolder_iff.mpr ⟨_, rfl, t.entry?_start _⟩
  | cons step steps =>
    obtain ⟨hc, -⟩ | ⟨_, -, hc⟩ | ⟨_, _, -, hc⟩ :=
      makeFolders_cons t.toDirectory absolute step steps
    · exact isFolder_of_ensureFolder (hc.symm.trans h)
    · exact isFolder_of_ensureFolder (hc.symm.trans h)
    · simp [hc] at h

theorem ensureFolder_clear (t : Tree) {absolute : Bool} {names : List String}
    {name : String} (hshort : ∀ n ∈ names ++ [name], ¬greatestName < Text.byteLength n.toList)
    (h : Clear t.toDirectory (t.start (stepped absolute [])) (names ++ [name])) :
    (∃ made, t.ensureFolder (stepped absolute (.enter name :: (names.map .enter).reverse)) =
        (made, .ok ())) ∨
      t.ensureFolder (stepped absolute (.enter name :: (names.map .enter).reverse)) =
          (t.toDirectory, .error .notFound) ∧
        t.isFolder (stepped absolute (names.map .enter).reverse) = false := by
  have hname : (stepped absolute (.enter name :: (names.map .enter).reverse)).fileName? =
      some name := by
    simp [stepped, Path.fileName?]
  have hparent : (stepped absolute (.enter name :: (names.map .enter).reverse)).parent =
      stepped absolute (names.map .enter).reverse := by
    simp [stepped, Path.parent]
  have hwalk : t.resolve (stepped absolute (names.map .enter).reverse) =
      t.walk (t.start (stepped absolute [])) (names.map .enter) := by
    rw [resolve, stepped, List.reverse_reverse]
    rfl
  obtain ⟨hplace, hfolder⟩ | ⟨hmissing, -⟩ := walk_clear t (t.entry?_start _)
    (fun n hn => hshort n (List.mem_append_left [name] hn)) h.before
  · refine .inl (ensureFolder_of_parent hname ?_ hfolder (hshort name (by simp)) fun content => ?_)
    · rw [hparent, hwalk, hplace]
    · rw [List.append_assoc]
      exact h _ List.prefix_rfl content
  · refine .inr ⟨ensureFolder_of_missing hname ?_, ?_⟩
    · rw [hparent, hwalk, hmissing]
    · simp [isFolder, hwalk, hmissing]

theorem makeFolders_clear (t : Tree) {absolute : Bool} {names : List String}
    (hshort : ∀ n ∈ names, ¬greatestName < Text.byteLength n.toList)
    (h : Clear t.toDirectory (t.start (stepped absolute [])) names) :
    ∃ made, t.makeFolders absolute (names.map .enter).reverse = (made, .ok ()) := by
  induction names using List.reverseRecOn with
  | nil => exact ⟨t.toDirectory, rfl⟩
  | append_singleton names name ih =>
    obtain ⟨above, habove⟩ := ih (fun n hn => hshort n (List.mem_append_left [name] hn)) h.before
    have hmade := makeFolders_made t.toDirectory absolute (names.map .enter).reverse
    rw [habove] at hmade
    have hstart : above.start (stepped absolute []) = t.start (stepped absolute []) := by
      rw [start, hmade.home]
      rfl
    have hsteps : ((names ++ [name]).map Step.enter).reverse =
        .enter name :: (names.map .enter).reverse := by
      simp
    rw [hsteps]
    obtain ⟨hc, hother⟩ | ⟨made, hrest, hc⟩ | ⟨made, e, hrest, -⟩ :=
      makeFolders_cons t.toDirectory absolute (.enter name) (names.map .enter).reverse
    · rw [hc]
      obtain hok | ⟨hmissing, -⟩ := ensureFolder_clear t hshort h
      · exact hok
      · simp [hmissing] at hother
    · obtain rfl : above = made := congrArg Prod.fst (habove.symm.trans hrest)
      rw [hc]
      obtain hok | ⟨-, hnone⟩ :=
        ensureFolder_clear ⟨above, hmade.sound⟩ hshort (hstart ▸ h.made hmade)
      · exact hok
      · simp [isFolder_of_makeFolders habove] at hnone
    · simp [habove] at hrest

theorem write_of_parent {d : Directory} {path : String} {name : String} {folder : Place}
    (hpath : refused? path = none) (hending : (Path.ofText path).ending = .name)
    (hname : (Path.ofText path).fileName? = some name)
    (hparent : d.resolve (Path.ofText path).parent = .ok folder)
    (hfolder : d.entry? folder = some .folder)
    (hshort : ¬greatestName < Text.byteLength name.toList)
    (hplace : d.entry? (folder ++ [name]) ≠ some .folder) (s : String) :
    ∃ written, d.write path s = .ok written := by
  have hvacancy : d.vacancy (Path.ofText path) name = .ok (folder ++ [name]) := by
    simp [vacancy, hparent, hfolder, hshort, bind, Except.bind]
  refine ⟨d.set (folder ++ [name]) (.file (.text s)), ?_⟩
  simp only [write, hpath, hname, hending, hvacancy, bind, Except.bind]

theorem refused_of_read {d : Directory} {path : String}
    (hread : ∀ e, d.read path = .error e → e = .notFound) (hsteps : (Path.ofText path).steps ≠ []) :
    refused? path = none := by
  unfold refused?
  split
  · rename_i hempty
    obtain rfl : path = "" := by simpa using hempty
    exact absurd rfl hsteps
  · rename_i hempty
    split
    · rename_i hnul
      have hrefused : d.read path = .error .nulInName := by
        simp only [read, refused?, if_neg hempty, if_pos hnul]
      exact absurd (hread _ hrefused) (by decide)
    · rfl

theorem clear_of_read {t : Tree} {path : String} {names : List String}
    {name : String} (hread : ∀ e, t.read path = .error e → e = .notFound)
    (hsteps : (Path.ofText path).steps = (names ++ [name]).map .enter)
    (hshort : ∀ n ∈ names ++ [name], ¬greatestName < Text.byteLength n.toList) :
    Clear t.toDirectory (t.start (Path.ofText path)) names ∧
      t.entry? (t.start (Path.ofText path) ++ (names ++ [name])) ≠ some .folder := by
  have hpath : refused? path = none := refused_of_read hread (by simp [hsteps])
  have hwalk (e : FileError)
      (h : t.walk (t.start (Path.ofText path)) ((names ++ [name]).map .enter) = .error e) :
      e = .notFound := by
    refine hread e ?_
    rw [← hsteps] at h
    simp [read, hpath, resolve, h, bind, Except.bind]
  have hclear : Clear t.toDirectory (t.start (Path.ofText path)) names :=
    clear_of_walk (t.entry?_start _) (by simpa using hwalk)
  refine ⟨hclear, fun hfolder => ?_⟩
  have hall : Clear t.toDirectory (t.start (Path.ofText path)) (names ++ [name]) := by
    intro front hfront content
    obtain rfl | hfront := List.prefix_concat_iff.mp hfront
    · simp [hfolder]
    · exact hclear front hfront content
  obtain ⟨hthere, -⟩ | ⟨-, hnone⟩ := walk_clear t (t.entry?_start _) hshort hall
  · have hread' : t.read path = .error .isAFolder := by
      rw [← hsteps] at hthere
      simp [read, hpath, resolve, hthere, hfolder, bind, Except.bind]
    exact absurd (hread _ hread') (by decide)
  · simp [hnone] at hfolder

theorem start_stepped (d : Directory) (p : Path) (steps : List Step) :
    d.start (stepped p.absolute steps) = d.start p := by
  rfl

theorem save_plain (t : Tree) {path : String}
    (hplain : (Path.ofText path).isPlain = true)
    (hread : ∀ e, t.read path = .error e → e = .notFound) (s : String) :
    ∃ written, t.save path s = (written, .ok ()) := by
  obtain ⟨names, name, hsteps, hending, hshort, hnul⟩ := Path.exists_names hplain
  obtain ⟨hclear, hplace⟩ := clear_of_read hread hsteps hshort
  have hpath : refused? path = none := refused_of_read hread (by simp [hsteps])
  have hname : (Path.ofText path).fileName? = some name := by
    simp [Path.fileName?, hsteps]
  have hparent : (Path.ofText path).parent.steps = names.map .enter := by
    simp [Path.parent, hsteps]
  have hshort' : ∀ n ∈ names, ¬greatestName < Text.byteLength n.toList := fun n hn =>
    hshort n (List.mem_append_left [name] hn)
  obtain ⟨made, hmake⟩ : ∃ made, t.makeFolders (Path.ofText path).absolute
      (Path.ofText path).parent.steps.reverse = (made, .ok ()) := by
    rw [hparent]
    exact makeFolders_clear t hshort' hclear
  have hmade := makeFolders_made t.toDirectory (Path.ofText path).absolute
    (Path.ofText path).parent.steps.reverse
  have hfolder := isFolder_of_makeFolders hmake
  rw [hmake, start_stepped] at hmade
  rw [stepped_reverse_parent] at hfolder
  have hstart : made.start (Path.ofText path) = t.start (Path.ofText path) := by
    rw [start, hmade.home]
    rfl
  have hclear' : Clear made (made.start (Path.ofText path)) names := by
    rw [hstart]
    exact hclear.made hmade
  have hwalk : made.resolve (Path.ofText path).parent =
      made.walk (made.start (Path.ofText path)) (names.map .enter) := by
    rw [resolve, hparent]
    rfl
  obtain ⟨hthere, hentry⟩ | ⟨hmissing, -⟩ := walk_clear ⟨made, hmade.sound⟩
    (Tree.entry?_start ⟨made, hmade.sound⟩ (Path.ofText path)) hshort' hclear'
  · have hfree : made.entry? (made.start (Path.ofText path) ++ names ++ [name]) ≠
        some .folder := by
      rw [hstart, List.append_assoc]
      obtain hsame | ⟨-, -, hdepth⟩ :=
        hmade.entry?_cases (t.start (Path.ofText path) ++ (names ++ [name]))
      · rw [hsame]
        exact hplace
      · -- The new folders are all above the file.
        simp only [hparent, List.length_append, List.length_reverse, List.length_map,
          List.length_singleton] at hdepth
        omega
    obtain ⟨written, hwrite⟩ := write_of_parent hpath hending hname (hwalk.trans hthere) hentry
      (hshort name (by simp)) hfree s
    exact ⟨written, by simp [save, hnul, hmake, hwrite]⟩
  · simp [isFolder, hwalk.trans hmissing] at hfolder

theorem write_of_read {t : Tree} {path text : String} (h : t.read path = .ok text)
    (s : String) :
    t.isFolder (Path.ofText path).parent = true ∧ ∃ written, t.write path s = .ok written := by
  obtain ⟨hpath, hending, place, hplace, hentry⟩ := read_cases h
  obtain ⟨name, folder, hname, hparent, hfolder, hshort, rfl⟩ :=
    resolve_cases hplace (by simp [hentry])
  exact ⟨isFolder_iff.mpr ⟨folder, hparent, hfolder⟩,
    write_of_parent hpath hending hname hparent hfolder hshort (by simp [hentry]) s⟩

theorem save_error_cases {t : Tree} {failed : Directory} {path s : String} {e : FileError}
    (h : t.save path s = (failed, .error e)) :
    failed = t.toDirectory ∨
      t.isFolder (Path.ofText path).parent = false ∧ ∀ text, failed.read path ≠ .ok text := by
  obtain ⟨made, hmade, hkept, hc⟩ := save_cases t.toDirectory path s
  obtain ⟨written, -, hsave⟩ | ⟨e', hsave, hc⟩ := hc
  · simp [hsave] at h
  · obtain rfl : made = failed := congrArg Prod.fst (hsave.symm.trans h)
    cases hparent : t.isFolder (Path.ofText path).parent with
    | true => exact .inl (hkept hparent)
    | false =>
      obtain hsame | hc := hc
      · exact .inl hsame
      · refine .inr ⟨rfl, fun text hread => ?_⟩
        obtain ⟨hfolder, written, hwrite⟩ := write_of_read (t := ⟨made, hmade.sound⟩) hread s
        obtain hnone | hfailed := hc
        · simp [hfolder] at hnone
        · simp [hwrite] at hfailed

theorem isFolder_parent_of_save {d written : Directory} {path s : String}
    (h : d.save path s = (written, .ok ())) :
    written.isFolder (Path.ofText path).parent = true := by
  obtain ⟨made, -, -, hc⟩ := save_cases d path s
  obtain ⟨written', hwrite, hsave⟩ | ⟨e', hsave, -⟩ := hc
  · obtain rfl : written' = written := congrArg Prod.fst (hsave.symm.trans h)
    obtain ⟨-, -, name, folder, hname, hparent, hfolder, hshort, hplace, rfl⟩ := write_cases hwrite
    refine isFolder_iff.mpr ⟨folder, walk_set (by simp) hplace _ hparent, ?_⟩
    rw [lookup_set (by simp), if_neg (by simp), hfolder]
  · simp [hsave] at h

theorem save_sound (t : Tree) (path s : String) : (t.save path s).1.Sound := by
  obtain ⟨made, hmade, -, hc⟩ := save_cases t.toDirectory path s
  obtain ⟨written, hwrite, hsave⟩ | ⟨e, hsave, -⟩ := hc
  · obtain ⟨-, -, name, folder, -, -, hfolder, -, hplace, rfl⟩ := write_cases hwrite
    rw [hsave]
    exact Tree.sound_set (t := ⟨made, hmade.sound⟩) _ hfolder hplace
  · rw [hsave]
    exact hmade.sound

theorem save_home (d : Directory) (path s : String) : (d.save path s).1.home = d.home := by
  obtain ⟨made, hmade, -, hc⟩ := save_cases d path s
  obtain ⟨written, hwrite, hsave⟩ | ⟨e, hsave, -⟩ := hc
  · obtain ⟨-, -, name, folder, -, -, -, -, -, rfl⟩ := write_cases hwrite
    rw [hsave]
    exact hmade.home
  · rw [hsave]
    exact hmade.home

end Directory
end SceneScript
