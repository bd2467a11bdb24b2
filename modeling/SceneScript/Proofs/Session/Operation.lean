import SceneScript.Session

namespace SceneScript.Session

inductive Operation where
  | withScene (name base : String)
  | setText (text : String)
  | edit (text : String)
  | cursor (line : Nat)
  | toggleTheme
  | setLocation (location : Bool)
  | switchVersion (registry : Registry) (version : String)
  | disturb (directory : Directory)

def Operation.apply (s : Session) (d : Directory) : Operation → Change Unit
  | .withScene name base => ⟨s.withScene name base, d, .ok ()⟩
  | .setText text => ⟨s.setText text, d, .ok ()⟩
  | .edit text => ⟨(s.edit text).1, d, .ok ()⟩
  | .cursor _ => ⟨s, d, .ok ()⟩
  | .toggleTheme => (s.toggleTheme d).map fun _ => ()
  | .setLocation location => s.setLocation d location
  | .switchVersion registry version => s.switchVersion d registry version
  | .disturb directory => ⟨s, directory, .ok ()⟩

structure Setting where
  engine : Engine
  sceneName : String
  basePath : String

def setting (s : Session) : Setting :=
  ⟨s.engine, s.sceneName, s.basePath⟩

def Setting.parse (w : Setting) (text : String) : Scene :=
  w.engine.parse text w.sceneName w.basePath

def Operation.parses : Operation → Bool
  | .setText _ => true
  | .edit text => !text.isEmpty
  | .switchVersion _ _ => true
  | _ => false

/-- A session and its files after a history, with the setting in force at the latest parse. -/
structure Moment where
  session : Session
  directory : Directory
  parsed : Option Setting

namespace Moment

def next (m : Moment) (o : Operation) : Moment :=
  let c := o.apply m.session m.directory
  ⟨c.session, c.directory,
    if o.parses && c.result.isOk then some c.session.setting else m.parsed⟩

def after (m : Moment) (history : List Operation) : Moment :=
  history.foldl next m

inductive Fresh : Moment → Prop
  | new (preferences : Preferences) (engine : Engine) (d : Directory) :
      Fresh ⟨Session.new preferences engine, d, none⟩
  | opened {d : Directory} {path : String} {registry : Registry} {s : Session} :
      Session.opened d path registry = .ok s → Fresh ⟨s, d, none⟩

end Moment

theorem opened_eq_new {d : Directory} {path : String} {registry : Registry} {s : Session}
    (h : opened d path registry = .ok s) :
    ∃ preferences engine, Preferences.load d path = .ok preferences ∧
      registry.choose preferences.parserVersion = .ok engine ∧
      s = { new preferences engine with file := some path } := by
  simp only [opened, bind, Except.bind] at h
  cases hp : Preferences.load d path with
  | error e => simp [hp] at h
  | ok preferences =>
    cases he : registry.choose preferences.parserVersion with
    | error e => simp [hp, he] at h
    | ok engine =>
      simp only [hp, he, pure, Except.pure, Except.ok.injEq] at h
      exact ⟨preferences, engine, rfl, he, h.symm⟩

theorem switchTo_error (s : Session) (d : Directory) (version : String) (e : Failure) :
    s.switchTo d version (.error e) = ⟨s, d, .error e⟩ :=
  rfl

theorem switchTo_ok (s : Session) (d : Directory) (version : String) (engine : Engine) :
    let t : Session := { s with
      engine, preferences := { s.preferences with parserVersion := some version } }
    (s.switchTo d version (.ok engine) = ⟨t.reparse, (t.persist d).1, .ok ()⟩ ∧
        (t.persist d).2 = .ok ()) ∨
      ∃ e, s.switchTo d version (.ok engine) = ⟨t, (t.persist d).1, .error e⟩ ∧
        (t.persist d).2 = .error e := by
  intro t
  cases hp : (t.persist d).2 with
  | ok u => exact .inl ⟨by simp [switchTo, prefer, t] at hp ⊢; simp [hp], rfl⟩
  | error e => exact .inr ⟨e, by simp [switchTo, prefer, t] at hp ⊢; simp [hp], rfl⟩

theorem switchVersion_cases (s : Session) (d : Directory) (r : Registry) (version : String) :
    (∃ e, r.load version = .error e ∧ s.switchVersion d r version = ⟨s, d, .error e⟩) ∨
    ∃ engine, r.load version = .ok engine ∧
      let t : Session := { s with
        engine, preferences := { s.preferences with parserVersion := some version } }
      (s.switchVersion d r version = ⟨t.reparse, (t.persist d).1, .ok ()⟩ ∧
          (t.persist d).2 = .ok ()) ∨
      ∃ e, s.switchVersion d r version = ⟨t, (t.persist d).1, .error e⟩ ∧
        (t.persist d).2 = .error e := by
  cases hr : r.load version with
  | error e => exact .inl ⟨e, rfl, by rw [switchVersion, hr, switchTo_error]⟩
  | ok engine =>
    refine .inr ⟨engine, rfl, ?_⟩
    rw [switchVersion, hr]
    exact s.switchTo_ok d version engine

end SceneScript.Session
