import SceneScript.Proofs.CommandLine.Call
import SceneScript.Proofs.Files.Saving

namespace SceneScript

namespace Preferences

theorem read_of_load {d : Directory} {path : String} {p : Preferences} (h : load d path = .ok p) :
    (∃ s, d.read path = .ok s) ∨ d.read path = .error .notFound ∧ p = {} := by
  unfold load at h
  split at h
  · rename_i s hread
    exact .inl ⟨s, hread⟩
  · rename_i hread
    exact .inr ⟨hread, (Except.ok.inj h).symm⟩
  · simp at h

theorem load_of_not_read {d : Directory} {path : String} (h : ∀ s, d.read path ≠ .ok s) :
    load d path = .ok {} ∨ ∃ cause, load d path = .error (.file cause) := by
  unfold load
  split
  · rename_i s hread
    exact absurd hread (h s)
  · exact .inl rfl
  · rename_i cause _ _
    exact .inr ⟨cause, rfl⟩

theorem load_of_save_error {t : Tree} {failed : Directory} {path : String} {p wanted : Preferences}
    {e : Failure} (hload : load t.toDirectory path = .ok p)
    (h : wanted.save t.toDirectory path = (failed, .error e)) :
    load failed path = .ok p ∨
      (∃ cause, load failed path = .error (.file cause)) ∧
        (Path.ofText path).isPlain = false ∧ t.isFolder (Path.ofText path).parent = false := by
  obtain ⟨cause, -, hsave⟩ := save_error h
  obtain rfl | ⟨hparent, hunread⟩ := Directory.save_error_cases hsave
  · exact .inl hload
  · obtain ⟨s, hread⟩ | ⟨hread, rfl⟩ := read_of_load hload
    · simp [(Directory.write_of_read hread s).1] at hparent
    · refine (load_of_not_read hunread).imp_right fun hlost => ⟨hlost, ?_, hparent⟩
      cases hplain : (Path.ofText path).isPlain with
      | false => rfl
      | true =>
        obtain ⟨written, hsaved⟩ := Directory.save_plain t hplain
          (fun e he => (Except.error.inj (hread.symm.trans he)).symm) (String.ofList wanted.render)
        simp [hsaved] at hsave

theorem save_frame {t : Tree} {after : Directory} {path : String} {p : Preferences}
    {result : Except Failure Unit} (h : p.save t.toDirectory path = (after, result)) :
    after.home = t.home ∧ after.Sound ∧
      (t.isFolder (Path.ofText path).parent = true →
        after.isFolder (Path.ofText path).parent = true) := by
  have hhome := Directory.save_home t.toDirectory path (String.ofList p.render)
  have hsound := Directory.save_sound t path (String.ofList p.render)
  unfold save at h
  split at h
  · rename_i hsave
    obtain ⟨rfl, -⟩ := Prod.ext_iff.mp h
    rw [hsave] at hhome hsound
    exact ⟨hhome, hsound, fun _ => Directory.isFolder_parent_of_save hsave⟩
  · rename_i hsave
    obtain ⟨rfl, -⟩ := Prod.ext_iff.mp h
    rw [hsave] at hhome hsound
    refine ⟨hhome, hsound, fun hfolder => ?_⟩
    obtain hsame | ⟨hnone, -⟩ := Directory.save_error_cases hsave
    · exact hsame ▸ hfolder
    · simp [hfolder] at hnone

end Preferences

namespace CommandLine

namespace Call

def wanted (c : Call) (p : Preferences) : Preferences :=
  match Invocation.ofArguments c.args with
  | .ok ⟨_, .configure setting⟩ => setting.wanted p
  | _ => p

/-- The call is refused, or it is about the preferences in the file at a path; without an option
that is the default path. -/
def Configures (c : Call) (home : Place) (path : String) : Prop :=
  ∀ i, Invocation.ofArguments c.args = .ok i →
    (∃ setting, i.task = .configure setting) ∧
      i.globals.config.getD (Preferences.defaultPath (Place.text home)) = path

theorem configures_of_args {c : Call} {home : Place} {path : String} {globals : Globals}
    {setting : Setting}
    (hargs : Invocation.ofArguments c.args = .ok ⟨globals, .configure setting⟩)
    (hpath : globals.config.getD (Preferences.defaultPath (Place.text home)) = path) :
    c.Configures home path := by
  intro i hi
  obtain rfl := Except.ok.inj (hargs.symm.trans hi)
  exact ⟨⟨setting, rfl⟩, hpath⟩

theorem wanted_of_args {c : Call} {globals : Globals} {setting : Setting}
    (hargs : Invocation.ofArguments c.args = .ok ⟨globals, .configure setting⟩)
    (p : Preferences) : c.wanted p = setting.wanted p := by
  simp [wanted, hargs]

theorem run_configure {c : Call} {d : Directory} {path : String} {globals : Globals}
    {setting : Setting}
    (hargs : Invocation.ofArguments c.args = .ok ⟨globals, .configure setting⟩)
    (hpath : globals.config.getD (Preferences.defaultPath d.homeText) = path) :
    c.run d = ((runConfigure d path setting).directory,
      .ofResult (runConfigure d path setting).result) := by
  simp [run, hargs, Invocation.run, Invocation.config, hpath, Task.run]

theorem run_of_configures {c : Call} {d : Directory} {path : String}
    (h : c.Configures d.home path) :
    (∃ usage, c.run d = (d, .refused usage)) ∨
    ∃ setting, (∀ p, c.wanted p = setting.wanted p) ∧
      c.run d = ((runConfigure d path setting).directory,
        .ofResult (runConfigure d path setting).result) := by
  cases hargs : Invocation.ofArguments c.args with
  | error usage => exact .inl ⟨usage, by simp [run, hargs]⟩
  | ok i =>
    obtain ⟨⟨setting, htask⟩, hpath⟩ := h i hargs
    obtain ⟨globals, task⟩ := i
    obtain rfl : task = .configure setting := htask
    exact .inr ⟨setting, wanted_of_args hargs, run_configure hargs hpath⟩

end Call

structure Tally where
  directory : Directory
  preferences : Preferences

namespace Tally

/-- The setting of a call counts where the call is answered. -/
def next (t : Tally) (c : Call) : Tally :=
  match c.run t.directory with
  | (d, .answered _) => ⟨d, c.wanted t.preferences⟩
  | (d, _) => ⟨d, t.preferences⟩

theorem next_answered {t : Tally} {c : Call} {d : Directory} {answer : Answer}
    (h : c.run t.directory = (d, .answered answer)) : t.next c = ⟨d, c.wanted t.preferences⟩ := by
  simp only [next, h]

def after (t : Tally) (calls : List Call) : Tally :=
  calls.foldl next t

structure Kept (t : Tally) (home : Place) (path : String) : Prop where
  home : t.directory.home = home
  sound : t.directory.Sound
  loaded : Preferences.load t.directory path = .ok t.preferences

structure Lost (t : Tally) (home : Place) (path : String) : Prop where
  home : t.directory.home = home
  unloaded : ∃ cause, Preferences.load t.directory path = .error (.file cause)

variable {home : Place} {path : String}

theorem next_cases {t : Tally} (h : t.Kept home path) {c : Call} (hc : c.Configures home path) :
    ((t.next c).Kept home path ∧
      (t.directory.isFolder (Path.ofText path).parent = true →
        (t.next c).directory.isFolder (Path.ofText path).parent = true) ∧
      ∀ answer, (c.run t.directory).2 = .answered answer →
        answer = .preferences path (t.next c).preferences) ∨
    ((t.next c).Lost home path ∧ (∀ answer, (c.run t.directory).2 ≠ .answered answer) ∧
      (Path.ofText path).isPlain = false ∧
      t.directory.isFolder (Path.ofText path).parent = false) := by
  obtain ⟨d, p⟩ := t
  obtain ⟨rfl, hd, hload⟩ := h
  simp only at hd hload hc ⊢
  obtain ⟨usage, hrun⟩ | ⟨setting, hwanted, hrun⟩ := Call.run_of_configures hc
  · simp only [next, hrun]
    exact .inl ⟨⟨rfl, hd, hload⟩, id, by simp⟩
  · obtain ⟨e, herror, -⟩ | ⟨p', hp, hcases⟩ := runConfigure_cases d path setting
    · simp [hload] at herror
    · obtain rfl : p = p' := Except.ok.inj (hload.symm.trans hp)
      obtain ⟨hsame, h⟩ | ⟨version, -, h⟩ | ⟨saved, hsave, hloaded, h⟩ |
        ⟨failed, cause, hsave, h⟩ := hcases
      · simp only [next, hrun, h, Ending.ofResult, hwanted, hsame]
        exact .inl ⟨⟨rfl, hd, hload⟩, id, by simp⟩
      · simp only [next, hrun, h, Ending.ofResult]
        exact .inl ⟨⟨rfl, hd, hload⟩, id, by simp⟩
      · obtain ⟨hhome, hsound, hfolder⟩ := Preferences.save_frame (t := ⟨d, hd⟩) hsave
        simp only [next, hrun, h, Ending.ofResult, hwanted]
        exact .inl ⟨⟨hhome, hsound, hloaded⟩, hfolder, by simp⟩
      · obtain ⟨hhome, hsound, hfolder⟩ := Preferences.save_frame (t := ⟨d, hd⟩) hsave
        simp only [next, hrun, h, Ending.ofResult]
        obtain hkept | ⟨hlost, hplain, hnone⟩ :=
          Preferences.load_of_save_error (t := ⟨d, hd⟩) hload hsave
        · exact .inl ⟨⟨hhome, hsound, hkept⟩, hfolder, by simp⟩
        · exact .inr ⟨⟨hhome, hlost⟩, by simp, hplain, hnone⟩

theorem next_of_lost {t : Tally} (h : t.Lost home path) {c : Call} (hc : c.Configures home path) :
    t.next c = t ∧ ∀ answer, (c.run t.directory).2 ≠ .answered answer := by
  obtain ⟨d, p⟩ := t
  obtain ⟨rfl, cause, hload⟩ := h
  simp only at hload hc ⊢
  obtain ⟨usage, hrun⟩ | ⟨setting, -, hrun⟩ := Call.run_of_configures hc
  · simp [next, hrun]
  · obtain ⟨e, -, h⟩ | ⟨p', hp, -⟩ := runConfigure_cases d path setting
    · simp [next, hrun, h, Ending.ofResult]
    · simp [hload] at hp

theorem after_lost {t : Tally} (h : t.Lost home path) {calls : List Call}
    (hcalls : ∀ c ∈ calls, c.Configures home path) : (t.after calls).Lost home path := by
  induction calls with
  | nil => exact h
  | cons c calls ih =>
    have hnext := (next_of_lost h (hcalls c List.mem_cons_self)).1
    rw [after, List.foldl_cons, hnext]
    exact ih fun c' hc' => hcalls c' (List.mem_cons_of_mem c hc')

theorem after_cases {t : Tally} (h : t.Kept home path) {calls : List Call}
    (hcalls : ∀ c ∈ calls, c.Configures home path) :
    (t.after calls).Kept home path ∨
      (t.after calls).Lost home path ∧ (Path.ofText path).isPlain = false ∧
        t.directory.isFolder (Path.ofText path).parent = false := by
  induction calls generalizing t with
  | nil => exact .inl h
  | cons c calls ih =>
    have hrest : ∀ c' ∈ calls, c'.Configures home path := fun c' hc' =>
      hcalls c' (List.mem_cons_of_mem c hc')
    obtain ⟨hnext, hfolder, -⟩ | ⟨hlost, -, hplain, hnone⟩ :=
      next_cases h (hcalls c List.mem_cons_self)
    · obtain hkept | ⟨hlost, hplain, hnone⟩ := ih hnext hrest
      · exact .inl hkept
      · exact .inr ⟨hlost, hplain, Bool.eq_false_iff.mpr
          fun hold => by simp [hfolder hold] at hnone⟩
    · exact .inr ⟨after_lost hlost hrest, hplain, hnone⟩

/-- After every sequence of calls about one file, what is loaded is the first preferences with the
settings of the answered calls, and the answers show the same on the way. It may be that no
preferences can be loaded any more; but then the folder of the file was missing at first, and its
path is not plain. -/
theorem after_loaded {d : Directory} {p : Preferences} (hd : d.Sound)
    (hload : Preferences.load d path = .ok p) {calls : List Call}
    (hcalls : ∀ c ∈ calls, c.Configures d.home path) :
    let t := after ⟨d, p⟩ calls
    (Preferences.load t.directory path = .ok t.preferences ∨
      (∃ cause, Preferences.load t.directory path = .error (.file cause)) ∧
        (Path.ofText path).isPlain = false ∧ d.isFolder (Path.ofText path).parent = false) ∧
    ∀ front c back answer, calls = front ++ c :: back →
      let s := after ⟨d, p⟩ front
      (c.run s.directory).2 = .answered answer →
        answer = .preferences path (s.next c).preferences ∧
          Preferences.load (s.next c).directory path = .ok (s.next c).preferences := by
  intro t
  have hkept : Kept ⟨d, p⟩ d.home path := ⟨rfl, hd, hload⟩
  constructor
  · obtain h | ⟨h, hplain, hnone⟩ := after_cases hkept hcalls
    · exact .inl h.loaded
    · exact .inr ⟨h.unloaded, hplain, hnone⟩
  · intro front c back answer hcall s hanswer
    subst hcall
    have hfront : ∀ c' ∈ front, c'.Configures d.home path := fun c' hc' =>
      hcalls c' (List.mem_append_left _ hc')
    have hc := hcalls c (by simp)
    obtain h | ⟨h, -, -⟩ := after_cases hkept hfront
    · obtain ⟨hnext, -, hshown⟩ | ⟨-, hfailed, -⟩ := next_cases h hc
      · exact ⟨hshown answer hanswer, hnext.loaded⟩
      · exact absurd hanswer (hfailed answer)
    · exact absurd hanswer ((next_of_lost h hc).2 answer)

def followCursor (config : String) : Call :=
  ⟨["--config", config, "config", "location", "on"], .zero⟩

def darkFile (path : String) : Directory :=
  (Preferences.save ⟨.dark, false, none⟩ (Directory.bare []) path).1

theorem after_loaded_twoSettings :
    let t := after ⟨Directory.bare [], {}⟩ [Call.darkTheme "c.yaml", followCursor "c.yaml"]
    t.preferences = ⟨.dark, true, none⟩ ∧
      Preferences.load t.directory "c.yaml" = .ok ⟨.dark, true, none⟩ := by
  have hdark : Invocation.ofArguments (Call.darkTheme "c.yaml").args =
      .ok ⟨{ config := some "c.yaml" }, .configure (.theme (.only .dark))⟩ := rfl
  have hfollow : Invocation.ofArguments (followCursor "c.yaml").args =
      .ok ⟨{ config := some "c.yaml" }, .configure (.location true)⟩ := rfl
  have hcalls : ∀ c ∈ [Call.darkTheme "c.yaml", followCursor "c.yaml"],
      c.Configures (Directory.bare []).home "c.yaml" := by
    simpa using ⟨Call.configures_of_args hdark rfl, Call.configures_of_args hfollow rfl⟩
  have hload : Preferences.load (Directory.bare []) "c.yaml" = .ok {} := rfl
  have hplain : (Path.ofText "c.yaml").isPlain = true := rfl
  have hsound : (Directory.bare []).Sound := Tree.root.sound
  have hloaded := (after_loaded hsound hload hcalls).1
  simp only [hplain, Bool.true_eq_false, false_and, and_false, or_false] at hloaded
  have hdarkFile : Preferences.load (darkFile "c.yaml") "c.yaml" = .ok ⟨.dark, false, none⟩ := by
    have hsaved : (Preferences.save ⟨.dark, false, none⟩ (Directory.bare []) "c.yaml").2 = .ok () :=
      rfl
    exact ((Preferences.save_cases _ _ _).resolve_right (by simp [hsaved])).2
  have hfirst := next_answered (t := ⟨Directory.bare [], {}⟩) Call.run_darkTheme
  have hrun : (followCursor "c.yaml").run (darkFile "c.yaml") =
      ((runConfigure (darkFile "c.yaml") "c.yaml" (.location true)).directory,
        .ofResult (runConfigure (darkFile "c.yaml") "c.yaml" (.location true)).result) :=
    Call.run_configure hfollow rfl
  rw [runConfigure_saved hdarkFile (by simp) (by decide) rfl] at hrun
  have hsecond := next_answered (t := ⟨darkFile "c.yaml", ⟨.dark, false, none⟩⟩) hrun
  have hpreferences : (after ⟨Directory.bare [], {}⟩
      [Call.darkTheme "c.yaml", followCursor "c.yaml"]).preferences = ⟨.dark, true, none⟩ := by
    simp only [after, List.foldl_cons, List.foldl_nil, hfirst, Call.wanted_of_args hdark]
    rw [Call.wanted_of_args hfollow] at hsecond
    exact congrArg preferences hsecond
  rw [hpreferences] at hloaded
  exact ⟨hpreferences, hloaded⟩

theorem after_not_loaded :
    (Directory.bare []).Sound ∧ Preferences.load (Directory.bare []) "a/.." = .ok {} ∧
      (Call.darkTheme "a/..").Configures (Directory.bare []).home "a/.." ∧
      let t := after ⟨Directory.bare [], {}⟩ [Call.darkTheme "a/.."]
      t.preferences = {} ∧ Preferences.load t.directory "a/.." = .error (.file .isAFolder) := by
  refine ⟨Tree.root.sound, rfl, ?_, rfl, rfl⟩
  exact Call.configures_of_args rfl rfl

end Tally
end CommandLine
end SceneScript
