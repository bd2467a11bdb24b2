import SceneScript.Proofs.Script.Sentences
import SceneScript.Proofs.Session.Operation

namespace SceneScript.Session

def Moment.Published (m : Moment) : Prop :=
  match m.parsed with
  | none => m.session.text = "" ∧ m.session.scene = {} ∧ m.session.output = "\x7b\x7d"
  | some w => m.session.scene = w.parse m.session.text ∧
      m.session.output = String.ofList m.session.scene.toJson.pretty

def SameShown (s t : Session) : Prop :=
  s.text = t.text ∧ s.scene = t.scene ∧ s.output = t.output

theorem reparse_published (s : Session) (d : Directory) :
    Moment.Published ⟨s.reparse, d, some s.reparse.setting⟩ :=
  ⟨rfl, rfl⟩

theorem published_of_sameShown {s t : Session} {d d' : Directory} {parsed : Option Setting}
    (hs : SameShown t s) (h : Moment.Published ⟨s, d, parsed⟩) :
    Moment.Published ⟨t, d', parsed⟩ := by
  obtain ⟨htext, hscene, houtput⟩ := hs
  cases parsed with
  | none =>
    obtain ⟨h₁, h₂, h₃⟩ := h
    exact ⟨htext.trans h₁, hscene.trans h₂, houtput.trans h₃⟩
  | some w =>
    obtain ⟨h₁, h₂⟩ := h
    simp only at h₁ h₂
    constructor
    · simp only [hscene, htext, h₁]
    · simp only [houtput, hscene, h₂]

theorem apply_cases (s : Session) (d : Directory) (o : Operation) :
    (∃ t : Session, (o.apply s d).session = t.reparse ∧
        (o.parses && (o.apply s d).result.isOk) = true) ∨
    (SameShown (o.apply s d).session s ∧
        (o.parses && (o.apply s d).result.isOk) = false) := by
  cases o with
  | withScene name base => exact .inr ⟨⟨rfl, rfl, rfl⟩, rfl⟩
  | setText text => exact .inl ⟨{ s with text }, rfl, rfl⟩
  | edit text =>
    by_cases ht : text.isEmpty
    · exact .inr ⟨by simp [Operation.apply, edit, ht, SameShown], by simp [Operation.parses, ht]⟩
    · refine .inl ⟨{ s with text }, ?_, ?_⟩
      · simp [Operation.apply, edit, ht, setText]
      · simp [Operation.parses, Operation.apply, ht, Except.isOk, Except.toBool]
  | cursor line => exact .inr ⟨⟨rfl, rfl, rfl⟩, rfl⟩
  | toggleTheme => exact .inr ⟨⟨rfl, rfl, rfl⟩, rfl⟩
  | setLocation location => exact .inr ⟨⟨rfl, rfl, rfl⟩, rfl⟩
  | switchVersion registry version =>
    simp only [Operation.apply, Operation.parses, Bool.true_and]
    obtain ⟨e, -, hc⟩ | ⟨engine, -, hc⟩ := switchVersion_cases s d registry version
    · exact .inr ⟨by simp [hc, SameShown], by rw [hc]; rfl⟩
    · obtain ⟨hc, -⟩ | ⟨e, hc, -⟩ := hc
      · exact .inl ⟨_, congrArg Change.session hc, by rw [hc]; rfl⟩
      · exact .inr ⟨by simp [hc, SameShown], by rw [hc]; rfl⟩
  | disturb directory => exact .inr ⟨⟨rfl, rfl, rfl⟩, rfl⟩

theorem fresh_published {m : Moment} (h : m.Fresh) : m.Published := by
  cases h with
  | new preferences engine d => exact ⟨rfl, rfl, rfl⟩
  | opened h =>
    obtain ⟨preferences, engine, -, -, rfl⟩ := opened_eq_new h
    exact ⟨rfl, rfl, rfl⟩

theorem next_published {m : Moment} (o : Operation) (h : m.Published) : (m.next o).Published := by
  obtain ⟨s, d, parsed⟩ := m
  simp only [Moment.next]
  obtain ⟨t, ht, hp⟩ | ⟨hs, hp⟩ := apply_cases s d o
  · rw [hp, ht]
    exact reparse_published t _
  · rw [hp]
    exact published_of_sameShown hs h

theorem after_published {m : Moment} (h : m.Published) (history : List Operation) :
    (m.after history).Published := by
  induction history generalizing m with
  | nil => exact h
  | cons o history ih => exact ih (next_published o h)

/-- After every history: nothing is shown before the first parse, and from then on the scene of the
text under the setting of the latest parse, in its pretty form. -/
theorem output_shows_latest_parse {m : Moment} (h : m.Fresh) (history : List Operation) :
    let s := (m.after history).session
    ((m.after history).parsed = none → s.text = "" ∧ s.scene = {} ∧ s.output = "\x7b\x7d") ∧
    ∀ w, (m.after history).parsed = some w →
      s.scene = w.engine.parse s.text w.sceneName w.basePath ∧
      s.output = String.ofList s.scene.toJson.pretty ∧
      (w.engine.ByLine → s.scene.sentences.length = (Text.lines s.text.toList).length) := by
  have hp := after_published (fresh_published h) history
  unfold Moment.Published at hp
  refine ⟨fun hn => by simpa [hn] using hp, fun w hw => ?_⟩
  rw [hw] at hp
  obtain ⟨hscene, houtput⟩ := hp
  refine ⟨hscene, houtput, fun he => ?_⟩
  rw [hscene]
  exact he.parse_sentences_length _ _ _

def twoEngines : Registry :=
  Registry.builtin.register "2.0" (Engine.tagged "2.0")

def failedSwitch : List Operation :=
  [.setText "A:hi\nend", .disturb ⟨[], [(["c.yaml"], .folder)]⟩, .switchVersion twoEngines "0.1.0"]

theorem output_shows_latest_parse_failed_switch :
    ∃ s, opened (Directory.bare []) "c.yaml" twoEngines = .ok s ∧
      let m := Moment.after ⟨s, Directory.bare [], none⟩ failedSwitch
      m.session.engine = Engine.builtin ∧ m.session.scene.sentences.length = 2 ∧
        m.session.scene = (Engine.tagged "2.0").parse "A:hi\nend" "test" "" ∧
        m.session.output = String.ofList m.session.scene.toJson.pretty := by
  have ho : opened (Directory.bare []) "c.yaml" twoEngines =
      .ok { new {} (Engine.tagged "2.0") with file := some "c.yaml" } := rfl
  refine ⟨_, ho, rfl, ?_⟩
  have h := output_shows_latest_parse (.opened ho) failedSwitch
  obtain ⟨hscene, houtput, hlength⟩ := h.2 ⟨Engine.tagged "2.0", "test", ""⟩ rfl
  exact ⟨hlength (.tagged "2.0"), hscene, houtput⟩

end SceneScript.Session
