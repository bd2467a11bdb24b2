import SceneScript.CommandLine.Run
import SceneScript.Proofs.Files.Folders
import SceneScript.Proofs.Preferences.ReadBack
import SceneScript.Proofs.Session.Unsaved

namespace SceneScript

theorem Registry.builtin_choose (wanted : Option String) :
    ∃ engine, builtin.choose wanted = .ok engine := by
  have hnewest : builtin.loadNewest = .ok Engine.builtin := rfl
  cases wanted with
  | none => exact ⟨_, hnewest⟩
  | some version =>
    cases hload : builtin.load version with
    | ok engine => exact ⟨engine, by simp [choose, hload]⟩
    | error e => exact ⟨_, by simp only [choose, hload]; exact hnewest⟩

namespace Preferences

theorem content?_save {p : Preferences} {d saved : Directory} {path : String}
    (h : p.save d path = (saved, .ok ())) :
    ∃ place, saved.resolve (Path.ofText path) = .ok place ∧
      ∀ q, q ≠ place → saved.content? q = d.content? q := by
  unfold save at h
  split at h
  · rename_i hsave
    obtain rfl := congrArg Prod.fst h
    exact Directory.content?_save hsave
  · simp at h

end Preferences

namespace Session

theorem opened_builtin {d : Directory} {config : String} {p : Preferences}
    (h : Preferences.load d config = .ok p) :
    ∃ s, opened d config .builtin = .ok s ∧ s.preferences = p ∧ s.file = some config := by
  obtain ⟨engine, hengine⟩ := Registry.builtin_choose p.parserVersion
  refine ⟨{ new p engine with file := some config }, ?_, rfl, rfl⟩
  simp [opened, h, hengine, bind, Except.bind, pure, Except.pure]

end Session

namespace CommandLine

inductive Ending where
  | refused (usage : Usage)
  | failed (error : TaskError)
  | answered (answer : Answer)

namespace Ending

def ofResult : Except TaskError Answer → Ending
  | .ok answer => answered answer
  | .error e => failed e

def status : Ending → Nat
  | refused usage => usage.status
  | failed _ => 1
  | answered _ => 0

end Ending

structure Call where
  args : List String
  elapsed : Duration

def Call.run (c : Call) (d : Directory) : Directory × Ending :=
  match Invocation.ofArguments c.args with
  | .error usage => (d, .refused usage)
  | .ok i => ((i.run d c.elapsed).directory, .ofResult (i.run d c.elapsed).result)

def Setting.wanted (p : Preferences) : Setting → Preferences
  | .keep => p
  | .theme choice => { p with theme := choice.resolve p.theme }
  | .location on => { p with location := on }
  | .version v => { p with parserVersion := some v }

theorem Setting.apply_cases {s : Session} {config : String} (hfile : s.file = some config)
    (d : Directory) (setting : Setting) :
    (setting.wanted s.preferences = s.preferences ∧ (setting.apply d s).directory = d ∧
      (setting.apply d s).result = .ok ()) ∨
    (∃ version, setting = .version version ∧ (setting.apply d s).directory = d ∧
      (setting.apply d s).result = .error (.unknownVersion version)) ∨
    ((setting.apply d s).directory, (setting.apply d s).result) =
      (setting.wanted s.preferences).save d config := by
  have hmap {α : Type} (result : Except Failure Unit) (f : Unit → α) (g : α → Unit) :
      (result.map f).map g = result := by
    cases result <;> rfl
  cases setting with
  | keep => exact .inl ⟨rfl, rfl, rfl⟩
  | theme choice =>
    by_cases hsame : choice.resolve s.preferences.theme = s.preferences.theme
    · exact .inl ⟨by simp [wanted, hsame], by simp [apply, hsame], by simp [apply, hsame]⟩
    · have htoggled : choice.resolve s.preferences.theme = s.preferences.theme.toggled := by
        revert hsame
        cases s.preferences.theme <;> cases choice with
        | toggle => simp [ThemeChoice.resolve]
        | only theme => cases theme <;> simp [ThemeChoice.resolve, Theme.toggled]
      have happly : apply d s (.theme choice) = (s.toggleTheme d).map fun _ => () := by
        simp only [apply, if_neg hsame]
      refine .inr (.inr ?_)
      rw [happly, wanted, htoggled]
      simp [Session.toggleTheme, Session.prefer, Session.persist, Change.map, hfile, hmap]
  | location on =>
    refine .inr (.inr ?_)
    simp [apply, Session.setLocation, Session.prefer, Session.persist, hfile, wanted]
  | version version =>
    obtain ⟨e, hload, hc⟩ | ⟨engine, hload, hc⟩ :=
      Session.switchVersion_cases s d .builtin version
    · have he := Registry.load_error hload
      exact .inr (.inl ⟨version, rfl, by simp [apply, hc], by simp [apply, hc, he]⟩)
    · refine .inr (.inr ?_)
      simp only [Session.persist, hfile] at hc
      obtain ⟨hc, hsaved⟩ | ⟨e, hc, hfailed⟩ := hc
      · exact Prod.ext (by simp [apply, hc, wanted]) (by simp [apply, hc, wanted, hsaved])
      · exact Prod.ext (by simp [apply, hc, wanted]) (by simp [apply, hc, wanted, hfailed])

theorem runConfigure_cases (d : Directory) (config : String) (setting : Setting) :
    (∃ e, Preferences.load d config = .error e ∧
      runConfigure d config setting = ⟨d, .error (.failure e)⟩) ∨
    ∃ p, Preferences.load d config = .ok p ∧
      ((setting.wanted p = p ∧
          runConfigure d config setting = ⟨d, .ok (.preferences config p)⟩) ∨
        (∃ version, setting = .version version ∧
          runConfigure d config setting = ⟨d, .error (.failure (.unknownVersion version))⟩) ∨
        (∃ saved, (setting.wanted p).save d config = (saved, .ok ()) ∧
          Preferences.load saved config = .ok (setting.wanted p) ∧
          runConfigure d config setting =
            ⟨saved, .ok (.preferences config (setting.wanted p))⟩) ∨
        ∃ failed cause, (setting.wanted p).save d config = (failed, .error (.file cause)) ∧
          runConfigure d config setting = ⟨failed, .error (.failure (.file cause))⟩) := by
  cases hload : Preferences.load d config with
  | error e => exact .inl ⟨e, rfl, by simp [runConfigure, Session.opened, hload, bind, Except.bind]⟩
  | ok p =>
    obtain ⟨s, hopened, rfl, hfile⟩ := Session.opened_builtin hload
    refine .inr ⟨s.preferences, rfl, ?_⟩
    obtain ⟨hsame, hd, hr⟩ | ⟨version, hsetting, hd, hr⟩ | hsave := setting.apply_cases hfile d
    · refine .inl ⟨hsame, ?_⟩
      simp [runConfigure, hopened, hd, hr, hload, bind, Except.bind, pure, Except.pure,
        Except.mapError]
    · refine .inr (.inl ⟨version, hsetting, ?_⟩)
      simp [runConfigure, hopened, hd, hr, bind, Except.bind, Except.mapError]
    · obtain ⟨hd, hr⟩ := Prod.ext_iff.mp hsave
      simp only at hd hr
      obtain ⟨hsaved, hloaded⟩ | ⟨cause, hfailed⟩ :=
        (setting.wanted s.preferences).save_cases d config
      · refine .inr (.inr (.inl ⟨_, Prod.ext rfl hsaved, hloaded, ?_⟩))
        simp [runConfigure, hopened, hd, hr, hsaved, hloaded, bind, Except.bind, pure, Except.pure,
          Except.mapError]
      · refine .inr (.inr (.inr ⟨_, cause, Prod.ext rfl hfailed, ?_⟩))
        simp [runConfigure, hopened, hd, hr, hfailed, bind, Except.bind, Except.mapError]

theorem runConfigure_saved {d : Directory} {config : String} {p : Preferences} {setting : Setting}
    (hload : Preferences.load d config = .ok p) (hsetting : ∀ version, setting ≠ .version version)
    (hwanted : setting.wanted p ≠ p) (hsave : ((setting.wanted p).save d config).2 = .ok ()) :
    runConfigure d config setting =
      ⟨((setting.wanted p).save d config).1, .ok (.preferences config (setting.wanted p))⟩ := by
  obtain ⟨e, herror, -⟩ | ⟨p', hp, hc⟩ := runConfigure_cases d config setting
  · simp [hload] at herror
  · obtain rfl : p = p' := Except.ok.inj (hload.symm.trans hp)
    obtain ⟨hsame, -⟩ | ⟨version, hversion, -⟩ | ⟨saved, hsaved, -, h⟩ | ⟨_, _, hfailed, -⟩ := hc
    · exact absurd hsame hwanted
    · exact absurd hversion (hsetting version)
    · rw [h, hsaved]
    · simp [hfailed] at hsave

theorem runConfigure_keep (d : Directory) (config : String) :
    (runConfigure d config .keep).directory = d := by
  unfold runConfigure
  cases Session.opened d config .builtin <;> rfl

theorem runParse_cases (d : Directory) (config : String) (elapsed : Duration) (script : String)
    (name : Option String) (base : String) (out : Option String) :
    (runParse d config elapsed script name base out).directory = d ∨
    ∃ path s written answer, out = some path ∧ d.write path s = .ok written ∧
      runParse d config elapsed script name base out = ⟨written, .ok answer⟩ := by
  unfold runParse
  cases parseFile d config script name base with
  | error e => exact .inl rfl
  | ok s =>
    cases out with
    | none => exact .inl rfl
    | some path =>
      cases hwrite : d.write path s.output with
      | error cause => exact .inl (by simp [hwrite])
      | ok written =>
        refine .inr ⟨path, s.output, written, .parsed s.engine.version elapsed s.scene none, rfl,
          hwrite, ?_⟩
        simp only [hwrite]

def Task.target? (config : String) : Task → Option String
  | .parse _ _ _ out => out
  | .configure .keep => none
  | .configure _ => some config
  | .greet | .locate _ _ | .map _ _ _ | .versions => none

/-- A task leaves the tree as it is; or it writes one file, the target, and answers; or it has made
folders and fails. -/
theorem Task.run_cases (d : Directory) (config : String) (elapsed : Duration) (task : Task) :
    (task.run d config elapsed).directory = d ∨
    ∃ path, task.target? config = some path ∧
      ((∃ answer place, (task.run d config elapsed).result = .ok answer ∧
          (task.run d config elapsed).directory.resolve (Path.ofText path) = .ok place ∧
          ∀ q, q ≠ place → (task.run d config elapsed).directory.content? q = d.content? q) ∨
        ∃ e, (task.run d config elapsed).result = .error e ∧
          ∀ q, (task.run d config elapsed).directory.content? q = d.content? q) := by
  cases task with
  | greet => exact .inl rfl
  | locate output lines => exact .inl rfl
  | map script lines base => exact .inl rfl
  | versions => exact .inl rfl
  | parse script name base out =>
    obtain h | ⟨path, s, written, answer, rfl, hwrite, h⟩ :=
      runParse_cases d config elapsed script name base out
    · exact .inl h
    · obtain ⟨place, hplace, hother⟩ := Directory.write_frame hwrite
      refine .inr ⟨path, rfl, .inl ⟨answer, place, ?_⟩⟩
      simp only [run, h]
      refine ⟨trivial, hplace, fun q hq => ?_⟩
      rw [Directory.content?, hother q hq]
      rfl
  | configure setting =>
    by_cases hkeep : setting = .keep
    · subst hkeep
      exact .inl (runConfigure_keep d config)
    have htarget : target? config (.configure setting) = some config := by
      cases setting <;> first | exact absurd rfl hkeep | rfl
    obtain ⟨e, -, h⟩ | ⟨p, -, ⟨-, h⟩ | ⟨version, -, h⟩ | ⟨saved, hsave, -, h⟩ | hfailed⟩ :=
      runConfigure_cases d config setting
    · exact .inl (congrArg Outcome.directory h)
    · exact .inl (congrArg Outcome.directory h)
    · exact .inl (congrArg Outcome.directory h)
    · obtain ⟨place, hplace, hother⟩ := Preferences.content?_save hsave
      refine .inr ⟨config, htarget, .inl ⟨.preferences config (setting.wanted p), place, ?_⟩⟩
      simp only [run, h]
      exact ⟨trivial, hplace, hother⟩
    · obtain ⟨failed, cause, hsave, h⟩ := hfailed
      obtain ⟨_, -, hsave⟩ := Preferences.save_error hsave
      refine .inr ⟨config, htarget, .inr ⟨.failure (.file cause), ?_⟩⟩
      simp only [run, h]
      exact ⟨trivial, Directory.content?_save_error hsave⟩

namespace Call

def target? (c : Call) (d : Directory) : Option String :=
  (Invocation.ofArguments c.args).toOption.bind fun i => i.task.target? (i.config d)

/-- A call that is refused or fails changes no file. One that ends well changes its target at most;
and one without a target leaves the tree as it is. -/
theorem run_frame (c : Call) (d : Directory) :
    ((c.run d).2.status ≠ 0 → ∀ place, (c.run d).1.content? place = d.content? place) ∧
    ((c.run d).2.status = 0 →
      (∀ place, (c.run d).1.content? place = d.content? place) ∨
      ∃ path place, c.target? d = some path ∧
        (c.run d).1.resolve (Path.ofText path) = .ok place ∧
        ∀ other, other ≠ place → (c.run d).1.content? other = d.content? other) ∧
    (c.target? d = none → (c.run d).1 = d) := by
  cases hargs : Invocation.ofArguments c.args with
  | error usage => simp [run, hargs]
  | ok i =>
    have htarget : c.target? d = i.task.target? (i.config d) := by
      simp [target?, hargs, Except.toOption]
    have hrun : c.run d =
        ((i.run d c.elapsed).directory, .ofResult (i.run d c.elapsed).result) := by
      simp [run, hargs]
    rw [hrun, htarget]
    obtain h | ⟨path, hpath, hc⟩ := i.task.run_cases d (i.config d) c.elapsed
    · have hsame : (i.run d c.elapsed).directory = d := h
      simp only [hsame]
      exact ⟨fun _ _ => trivial, fun _ => .inl fun _ => trivial, fun _ => trivial⟩
    · obtain ⟨answer, place, hanswer, hplace, hother⟩ | ⟨e, herror, hkept⟩ := hc
      · have hr : (i.run d c.elapsed).result = .ok answer := hanswer
        refine ⟨fun hne => ?_, fun _ => .inr ⟨path, place, hpath, hplace, hother⟩, ?_⟩
        · simp [hr, Ending.ofResult, Ending.status] at hne
        · simp [hpath]
      · exact ⟨fun _ => hkept, fun _ => .inl hkept, by simp [hpath]⟩

def darkTheme (config : String) : Call :=
  ⟨["--config", config, "config", "theme", "dark"], .zero⟩

theorem run_darkTheme :
    (darkTheme "c.yaml").run (Directory.bare []) =
      ((Preferences.save ⟨.dark, false, none⟩ (Directory.bare []) "c.yaml").1,
        .answered (.preferences "c.yaml" ⟨.dark, false, none⟩)) := by
  have hrun : (darkTheme "c.yaml").run (Directory.bare []) =
      ((runConfigure (Directory.bare []) "c.yaml" (.theme (.only .dark))).directory,
        .ofResult (runConfigure (Directory.bare []) "c.yaml" (.theme (.only .dark))).result) := rfl
  have hload : Preferences.load (Directory.bare []) "c.yaml" = .ok {} := rfl
  rw [hrun, runConfigure_saved hload (by simp) (by decide) rfl]
  rfl

theorem run_frame_themes :
    let saved := (darkTheme "c.yaml").run (Directory.bare [])
    let failed := (darkTheme "a/..").run (Directory.bare [])
    let shown := Call.run ⟨["config", "show"], .zero⟩ (Directory.bare [])
    (saved.2.status = 0 ∧
      ∀ q, q ≠ ["c.yaml"] → saved.1.content? q = (Directory.bare []).content? q) ∧
    (failed.2.status = 1 ∧ failed.1 ≠ Directory.bare [] ∧
      ∀ q, failed.1.content? q = (Directory.bare []).content? q) ∧
    shown.1 = Directory.bare [] := by
  intro saved failed shown
  have hsaved : saved.2.status = 0 := by
    rw [show saved = _ from run_darkTheme]
    rfl
  have hplace : saved.1.resolve (Path.ofText "c.yaml") = .ok ["c.yaml"] := by
    rw [show saved = _ from run_darkTheme]
    rfl
  have hfailed : failed.2.status = 1 := by decide +kernel
  refine ⟨⟨hsaved, fun q hq => ?_⟩, ⟨hfailed, by decide +kernel, ?_⟩, ?_⟩
  · obtain hkept | ⟨path, place, hpath, hresolve, hother⟩ := (run_frame _ _).2.1 hsaved
    · exact hkept q
    · obtain rfl : "c.yaml" = path := Option.some.inj hpath
      obtain rfl : ["c.yaml"] = place := Except.ok.inj (hplace.symm.trans hresolve)
      exact hother q hq
  · exact (run_frame (darkTheme "a/..") (Directory.bare [])).1 (by rw [hfailed]; decide)
  · exact (run_frame ⟨["config", "show"], .zero⟩ (Directory.bare [])).2.2 (by decide)

end Call
end CommandLine
end SceneScript
