import SceneScript.Proofs.Session.Operation

namespace SceneScript

namespace Preferences

theorem save_error {p : Preferences} {d failed : Directory} {path : String} {e : Failure}
    (h : p.save d path = (failed, .error e)) :
    ∃ cause, e = .file cause ∧ d.save path (String.ofList p.render) = (failed, .error cause) := by
  unfold save at h
  split at h
  · simp at h
  · rename_i cause hsave
    obtain ⟨rfl, herror⟩ := Prod.ext_iff.mp h
    exact ⟨cause, (Except.error.inj herror).symm, hsave⟩

end Preferences

theorem Registry.load_error {r : Registry} {version : String} {e : Failure}
    (h : r.load version = .error e) : e = .unknownVersion version := by
  unfold load at h
  split at h
  · simp at h
  · exact (Except.error.inj h).symm

namespace Session

/-- What can be asked of the preferences of a session. A version comes with the answer of whatever
was to load its engine. -/
inductive Request where
  | toggleTheme
  | setLocation (location : Bool)
  | switchTo (version : String) (loaded : Except Failure Engine)

namespace Request

def apply (s : Session) (d : Directory) : Request → Change Unit
  | toggleTheme => (s.toggleTheme d).map fun _ => ()
  | setLocation location => s.setLocation d location
  | switchTo version loaded => s.switchTo d version loaded

def granted? (s : Session) : Request → Option Session
  | toggleTheme =>
      some { s with preferences := { s.preferences with theme := s.preferences.theme.toggled } }
  | setLocation location => some { s with preferences := { s.preferences with location } }
  | switchTo version loaded =>
      loaded.toOption.map fun engine =>
        { s with engine, preferences := { s.preferences with parserVersion := some version } }

end Request

theorem persist_error {s : Session} {d failed : Directory} {e : Failure}
    (h : s.persist d = (failed, .error e)) :
    ∃ path cause, s.file = some path ∧ e = .file cause ∧
      s.preferences.save d path = (failed, .error (.file cause)) := by
  unfold persist at h
  split at h
  · rename_i path hfile
    obtain ⟨cause, rfl, -⟩ := Preferences.save_error h
    exact ⟨path, cause, hfile, rfl, h⟩
  · simp at h

theorem request_error_cases {s : Session} {d : Directory} {r : Request} {e : Failure}
    (h : (r.apply s d).result = .error e) :
    (∃ version, r = .switchTo version (.error e) ∧ (r.apply s d).session = s) ∨
    r.granted? s = some (r.apply s d).session ∧
      (r.apply s d).session.persist d = ((r.apply s d).directory, .error e) := by
  have hmap {α : Type} {result : Except Failure Unit} {f : Unit → α} {g : α → Unit}
      (h : (result.map f).map g = .error e) : result = .error e := by
    cases result with
    | ok u => simp [Except.map] at h
    | error e' => exact h
  cases r with
  | toggleTheme => exact .inr ⟨rfl, Prod.ext rfl (hmap h)⟩
  | setLocation location => exact .inr ⟨rfl, Prod.ext rfl h⟩
  | switchTo version loaded =>
    cases loaded with
    | error e' =>
      obtain rfl := Except.error.inj h
      exact .inl ⟨version, rfl, rfl⟩
    | ok engine =>
      obtain ⟨hc, -⟩ | ⟨e', hc, hfailed⟩ := s.switchTo_ok d version engine
      · simp [Request.apply, hc] at h
      · simp only [Request.apply, hc, Except.error.injEq] at h ⊢
        exact .inr ⟨rfl, Prod.ext rfl (h ▸ hfailed)⟩

theorem granted?_shown {s t : Session} {r : Request} (h : r.granted? s = some t) :
    t.text = s.text ∧ t.scene = s.scene ∧ t.output = s.output ∧ t.file = s.file := by
  cases r with
  | toggleTheme =>
    obtain rfl := Option.some.inj h
    exact ⟨rfl, rfl, rfl, rfl⟩
  | setLocation location =>
    obtain rfl := Option.some.inj h
    exact ⟨rfl, rfl, rfl, rfl⟩
  | switchTo version loaded =>
    obtain ⟨engine, -, rfl⟩ := Option.map_eq_some_iff.mp h
    exact ⟨rfl, rfl, rfl, rfl⟩

/-- A request that fails leaves the text, the scene and the output as they were. Where no engine was
loaded the session is the same altogether; and where its file cannot be written it has the
preferences that were to be saved, with the engine of the wanted version. -/
theorem failed_change_effect {s : Session} {d : Directory} {r : Request} {e : Failure}
    (h : (r.apply s d).result = .error e) :
    let c := r.apply s d
    c.session.text = s.text ∧ c.session.scene = s.scene ∧ c.session.output = s.output ∧
    ((∃ version, r = .switchTo version (.error e) ∧ c.session = s) ∨
      ∃ path cause, s.file = some path ∧ e = .file cause ∧
        r.granted? s = some c.session ∧
        (c.session.preferences.save d path).2 = .error (.file cause)) := by
  intro c
  obtain ⟨version, hr, hs⟩ | ⟨hgranted, hpersist⟩ := request_error_cases h
  · exact ⟨by rw [hs], by rw [hs], by rw [hs], .inl ⟨version, hr, hs⟩⟩
  · obtain ⟨htext, hscene, houtput, hfile⟩ := granted?_shown hgranted
    obtain ⟨path, cause, hpath, he, hsave⟩ := persist_error hpersist
    exact ⟨htext, hscene, houtput,
      .inr ⟨path, cause, hfile.symm.trans hpath, he, hgranted, congrArg Prod.snd hsave⟩⟩

def blockedFile : Directory :=
  ⟨[], [(["c.yaml"], .folder)]⟩

def olderEngine : Registry :=
  Registry.builtin.register "0.0" (Engine.tagged "0.0")

def blockedHistory : List Operation :=
  [.setText "end", .disturb blockedFile]

theorem failed_change_effect_switch :
    ∃ s, opened (Directory.bare []) "c.yaml" olderEngine = .ok s ∧
      let m := Moment.after ⟨s, Directory.bare [], none⟩ blockedHistory
      let known := Request.switchTo "0.0" (olderEngine.load "0.0")
      let unknown := Request.switchTo "1.0" (olderEngine.load "1.0")
      let c := known.apply m.session m.directory
      (c.result = .error (.file .isAFolder) ∧ c.session.engine = Engine.tagged "0.0" ∧
        c.session.preferences.parserVersion = some "0.0" ∧ c.session.scene = m.session.scene) ∧
      (unknown.apply m.session m.directory).result = .error (.unknownVersion "1.0") ∧
        (unknown.apply m.session m.directory).session = m.session := by
  have ho : opened (Directory.bare []) "c.yaml" olderEngine =
      .ok { new {} Engine.builtin with file := some "c.yaml" } := rfl
  refine ⟨_, ho, ?_⟩
  intro m known unknown c
  have hresult : c.result = .error (.file .isAFolder) := rfl
  have hunknown : (unknown.apply m.session m.directory).result = .error (.unknownVersion "1.0") :=
    rfl
  refine ⟨?_, hunknown, ?_⟩
  · obtain ⟨-, hscene, -, hc⟩ := failed_change_effect hresult
    obtain ⟨version, hr, -⟩ | ⟨path, cause, -, -, hgranted, -⟩ := hc
    · have hload : olderEngine.load "0.0" = .ok (Engine.tagged "0.0") := rfl
      exact absurd (hload.symm.trans (Request.switchTo.inj hr).2) (by simp)
    · have hs := Option.some.inj hgranted
      exact ⟨hresult, hs ▸ rfl, hs ▸ rfl, hscene⟩
  · obtain ⟨-, -, -, hc⟩ := failed_change_effect hunknown
    obtain ⟨version, -, hs⟩ | ⟨path, cause, -, he, -⟩ := hc
    · exact hs
    · simp at he

theorem failed_changes_stay :
    ∃ s, opened (Directory.bare []) "c.yaml" olderEngine = .ok s ∧
      let m := Moment.after ⟨s, Directory.bare [], none⟩ blockedHistory
      let theme := Operation.apply m.session m.directory .toggleTheme
      let version := Operation.apply m.session m.directory (.switchVersion olderEngine "0.0")
      theme.result = .error (.file .isAFolder) ∧
        theme.session.preferences ≠ m.session.preferences ∧
        version.result = .error (.file .isAFolder) ∧
        version.session.preferences ≠ m.session.preferences ∧
        version.session.engine.version ≠ m.session.engine.version := by
  refine ⟨{ new {} Engine.builtin with file := some "c.yaml" }, rfl, rfl, ?_, rfl, ?_, ?_⟩
  all_goals decide

end Session
end SceneScript
