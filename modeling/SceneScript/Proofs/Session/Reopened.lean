import SceneScript.Proofs.Preferences.ReadBack
import SceneScript.Proofs.Session.Operation

namespace SceneScript

def Registry.chosenVersion (r : Registry) : Option String → Except Failure String
  | some version => if (r.load version).isOk then .ok version else r.newest
  | none => r.newest

theorem Registry.choose_eq (r : Registry) (wanted : Option String) :
    r.choose wanted = r.chosenVersion wanted >>= r.load := by
  cases wanted with
  | none => rfl
  | some version =>
    cases hload : r.load version with
    | ok engine => simp [choose, chosenVersion, hload, Except.isOk, Except.toBool, bind, Except.bind]
    | error e => simp [choose, chosenVersion, hload, Except.isOk, Except.toBool, loadNewest]

namespace Session

def Operation.Own (registry : Registry) : Operation → Prop
  | .switchVersion r _ => r = registry
  | .disturb _ => False
  | _ => True

def Returns (result : Except Failure Unit) : Prop :=
  result = .ok () ∨ ∃ version, result = .error (.unknownVersion version)

/-- Each operation of a history succeeds or is told of an unknown version. -/
def Moment.Steady (m : Moment) : List Operation → Prop
  | [] => True
  | o :: history =>
      Returns (o.apply m.session m.directory).result ∧ (m.next o).Steady history

def Operation.made (o : Operation) (m : Moment) (version : String) : String :=
  match o, (o.apply m.session m.directory).result with
  | .switchVersion _ v, .ok () => v
  | _, _ => version

def Moment.madeAfter (m : Moment) (version : String) : List Operation → String
  | [] => version
  | o :: history => (m.next o).madeAfter (o.made m version) history

/-- The file holds the preferences of the session, and these choose the entry that made its
engine. -/
structure Moment.Kept (m : Moment) (path : String) (registry : Registry) (version : String) :
    Prop where
  file : m.session.file = some path
  loaded : Preferences.load m.directory path = .ok m.session.preferences
  made : registry.load version = .ok m.session.engine
  chosen : registry.chosenVersion m.session.preferences.parserVersion = .ok version

variable {path : String} {registry : Registry}

theorem opened_kept {d : Directory} {s : Session} (h : opened d path registry = .ok s) :
    ∃ version, Moment.Kept ⟨s, d, none⟩ path registry version := by
  obtain ⟨preferences, engine, hload, hengine, rfl⟩ := opened_eq_new h
  rw [Registry.choose_eq] at hengine
  cases hchosen : registry.chosenVersion preferences.parserVersion with
  | error e => simp [hchosen, bind, Except.bind] at hengine
  | ok version =>
    rw [hchosen] at hengine
    exact ⟨version, rfl, hload, hengine, hchosen⟩

theorem opened_of_kept {m : Moment} {version : String} (h : m.Kept path registry version) :
    opened m.directory path registry =
      .ok { new m.session.preferences m.session.engine with file := some path } := by
  have hengine : registry.choose m.session.preferences.parserVersion = .ok m.session.engine := by
    rw [Registry.choose_eq, h.chosen]
    exact h.made
  simp [opened, h.loaded, hengine, bind, Except.bind, pure, Except.pure]

theorem persist_loaded {s : Session} {d : Directory} (hfile : s.file = some path)
    (hreturns : Returns (s.persist d).2) :
    (s.persist d).2 = .ok () ∧ Preferences.load (s.persist d).1 path = .ok s.preferences := by
  have hpersist : s.persist d = s.preferences.save d path := by simp [persist, hfile]
  rw [hpersist] at hreturns ⊢
  rcases s.preferences.save_cases d path with hsaved | ⟨e, herror⟩
  · exact hsaved
  · rw [herror] at hreturns
    rcases hreturns with h | ⟨version, h⟩ <;> simp at h

theorem returns_of_map {α : Type} {result : Except Failure Unit} {f : Unit → α} {g : α → Unit}
    (h : Returns ((result.map f).map g)) : Returns result := by
  cases result with
  | ok u => exact .inl rfl
  | error e => exact h

theorem switchVersion_kept {s : Session} {d : Directory} {parsed : Option Setting}
    {version wanted : String} (h : Moment.Kept ⟨s, d, parsed⟩ path registry version)
    (hreturns : Returns (s.switchVersion d registry wanted).result) :
    Moment.Kept (Moment.next ⟨s, d, parsed⟩ (.switchVersion registry wanted)) path registry
      (Operation.made (.switchVersion registry wanted) ⟨s, d, parsed⟩ version) := by
  obtain ⟨e, -, hc⟩ | ⟨engine, hload, hc⟩ := switchVersion_cases s d registry wanted
  · -- The version is unknown: nothing changes.
    simp only [Moment.next, Operation.made, Operation.apply, hc]
    exact ⟨h.file, h.loaded, h.made, h.chosen⟩
  · have hfile : ({ s with
        engine, preferences := { s.preferences with parserVersion := some wanted } } :
          Session).file = some path := h.file
    obtain ⟨hc, hsaved⟩ | ⟨e, hc, hfailed⟩ := hc
    · have hloaded := (persist_loaded hfile (.inl hsaved)).2
      have hchosen : registry.chosenVersion (some wanted) = .ok wanted := by
        simp [Registry.chosenVersion, hload, Except.isOk, Except.toBool]
      simp only [Moment.next, Operation.made, Operation.apply, hc]
      exact ⟨hfile, hloaded, hload, hchosen⟩
    · -- What is wrong with a file is no unknown version.
      rw [hc] at hreturns
      have hsaved := (persist_loaded hfile (by rw [hfailed]; exact hreturns)).1
      simp [hfailed] at hsaved

theorem next_kept {m : Moment} {version : String} (h : m.Kept path registry version)
    {o : Operation} (hown : o.Own registry)
    (hreturns : Returns (o.apply m.session m.directory).result) :
    (m.next o).Kept path registry (o.made m version) := by
  obtain ⟨s, d, parsed⟩ := m
  cases o with
  | withScene name base => exact ⟨h.file, h.loaded, h.made, h.chosen⟩
  | setText text => exact ⟨h.file, h.loaded, h.made, h.chosen⟩
  | edit text =>
    simp only [Moment.next, Operation.apply, edit]
    split <;> exact ⟨h.file, h.loaded, h.made, h.chosen⟩
  | cursor line => exact ⟨h.file, h.loaded, h.made, h.chosen⟩
  | toggleTheme =>
    have hsaved := persist_loaded
      (s := { s with preferences := { s.preferences with theme := s.preferences.theme.toggled } })
      (d := d) h.file (returns_of_map hreturns)
    exact ⟨h.file, hsaved.2, h.made, h.chosen⟩
  | setLocation location =>
    have hsaved := persist_loaded
      (s := { s with preferences := { s.preferences with location } }) (d := d) h.file hreturns
    exact ⟨h.file, hsaved.2, h.made, h.chosen⟩
  | switchVersion r wanted =>
    obtain rfl : r = registry := hown
    exact switchVersion_kept h hreturns
  | disturb directory => exact hown.elim

theorem after_kept {m : Moment} {version : String} (h : m.Kept path registry version)
    {history : List Operation} (hown : ∀ o ∈ history, o.Own registry) (hsteady : m.Steady history) :
    (m.after history).Kept path registry (m.madeAfter version history) := by
  induction history generalizing m version with
  | nil => exact h
  | cons o history ih =>
    obtain ⟨hreturns, hrest⟩ := hsteady
    have hnext := next_kept h (hown o List.mem_cons_self) hreturns
    exact ih hnext (fun p hp => hown p (List.mem_cons_of_mem o hp)) hrest

/-- After every history of its own operations that all succeed or are told of an unknown version,
the file holds the preferences of a session that was opened with it; and a session that is opened
anew has the same preferences, and an engine of the entry that made the engine of the first. -/
theorem reopened_agrees {d : Directory} {s : Session} (h : opened d path registry = .ok s) :
    ∃ first, registry.chosenVersion s.preferences.parserVersion = .ok first ∧
      registry.load first = .ok s.engine ∧
      ∀ history : List Operation, (∀ o ∈ history, o.Own registry) →
        Moment.Steady ⟨s, d, none⟩ history →
        let m := Moment.after ⟨s, d, none⟩ history
        let made := Moment.madeAfter ⟨s, d, none⟩ first history
        Preferences.load m.directory path = .ok m.session.preferences ∧
        registry.load made = .ok m.session.engine ∧
        ∃ second, opened m.directory path registry = .ok second ∧
          second.preferences = m.session.preferences ∧
          registry.chosenVersion second.preferences.parserVersion = .ok made ∧
          registry.load made = .ok second.engine := by
  obtain ⟨first, hfirst⟩ := opened_kept h
  refine ⟨first, hfirst.chosen, hfirst.made, fun history hown hsteady => ?_⟩
  have hkept := after_kept hfirst hown hsteady
  exact ⟨hkept.loaded, hkept.made, _, opened_of_kept hkept, rfl, hkept.chosen, hkept.made⟩

def oldVersions : Registry :=
  Registry.builtin.register "0.0" (Engine.tagged "0.0")

def staleFile : Directory :=
  ⟨[], [(["c.yaml"],
    .file (.text "theme: light\nlocation: false\nparser-version: gone\n"))]⟩

def staleHistory : List Operation :=
  [.switchVersion oldVersions "gone", .toggleTheme, .switchVersion oldVersions "0.0"]

def staleSession : Session :=
  { new ⟨.light, false, some "gone"⟩ Engine.builtin with file := some "c.yaml" }

theorem reopened_agrees_stale :
    opened staleFile "c.yaml" oldVersions = .ok staleSession ∧
      let m := Moment.after ⟨staleSession, staleFile, none⟩ staleHistory
      Preferences.load m.directory "c.yaml" = .ok ⟨.dark, false, some "0.0"⟩ ∧
      m.session.engine = Engine.tagged "0.0" ∧
      ∃ second, opened m.directory "c.yaml" oldVersions = .ok second ∧
        second.engine = Engine.tagged "0.0" := by
  have hread : staleFile.read "c.yaml" =
      .ok "theme: light\nlocation: false\nparser-version: gone\n" := rfl
  have htext : "theme: light\nlocation: false\nparser-version: gone\n".toList =
      Preferences.render ⟨.light, false, some "gone"⟩ := by decide +kernel
  have hload : Preferences.load staleFile "c.yaml" = .ok ⟨.light, false, some "gone"⟩ := by
    rw [Preferences.load, hread]
    simp only [htext, Preferences.ofText?_render]
  have hchoose : oldVersions.choose (some "gone") = .ok Engine.builtin := rfl
  have hopened : opened staleFile "c.yaml" oldVersions = .ok staleSession := by
    simp [opened, staleSession, hload, hchoose, bind, Except.bind, pure, Except.pure]
  have hown : ∀ o ∈ staleHistory, o.Own oldVersions := by
    simp [staleHistory, Operation.Own]
  have hsteady : Moment.Steady ⟨staleSession, staleFile, none⟩ staleHistory :=
    ⟨.inr ⟨"gone", rfl⟩, .inl rfl, .inl rfl, trivial⟩
  obtain ⟨first, -, -, hall⟩ := reopened_agrees hopened
  obtain ⟨hloaded, hmade, second, hsecond, -, -, hengine⟩ := hall staleHistory hown hsteady
  exact ⟨hopened, hloaded, rfl, second, hsecond, Except.ok.inj (hengine.symm.trans hmade)⟩

end Session

end SceneScript
