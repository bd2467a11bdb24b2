import SceneScript.Correlation.Locate
import SceneScript.Preferences.File
import SceneScript.Scene.Written
import SceneScript.Script.Registry

namespace SceneScript

structure Session where
  preferences : Preferences
  file : Option String
  engine : Engine
  sceneName : String
  basePath : String
  text : String
  scene : Scene
  output : String

/-- What a change of preferences leads to: the session and the tree of files, whether it fails or
not. -/
structure Change (α : Type) where
  session : Session
  directory : Directory
  result : Except Failure α

def Change.map {α β : Type} (f : α → β) (c : Change α) : Change β :=
  ⟨c.session, c.directory, c.result.map f⟩

namespace Session

def defaultName : String := "test"

def new (preferences : Preferences) (engine : Engine) : Session where
  preferences := preferences
  file := none
  engine := engine
  sceneName := defaultName
  basePath := ""
  text := ""
  scene := {}
  output := "\x7b\x7d"

def opened (d : Directory) (path : String) (registry : Registry) : Except Failure Session := do
  let preferences ← Preferences.load d path
  let engine ← registry.choose preferences.parserVersion
  return { new preferences engine with file := some path }

def withScene (s : Session) (name base : String) : Session :=
  { s with sceneName := name, basePath := base }

def reparse (s : Session) : Session :=
  let scene := s.engine.parse s.text s.sceneName s.basePath
  { s with scene, output := String.ofList scene.toJson.pretty }

def setText (s : Session) (text : String) : Session :=
  { s with text }.reparse

def edit (s : Session) (text : String) : Session × Bool :=
  if text.isEmpty then (s, false) else (s.setText text, true)

def select? (s : Session) (line : Nat) : Option Selection :=
  if s.preferences.location then Correlation.select? s.output.toList line else none

def persist (s : Session) (d : Directory) : Directory × Except Failure Unit :=
  match s.file with
  | some path => s.preferences.save d path
  | none => (d, .ok ())

def prefer (s : Session) (d : Directory) (preferences : Preferences) : Change Unit :=
  let s := { s with preferences }
  let (directory, result) := s.persist d
  ⟨s, directory, result⟩

def toggleTheme (s : Session) (d : Directory) : Change Theme :=
  let theme := s.preferences.theme.toggled
  (s.prefer d { s.preferences with theme }).map fun () => theme

def setLocation (s : Session) (d : Directory) (location : Bool) : Change Unit :=
  s.prefer d { s.preferences with location }

/-- The session takes the engine that was loaded for a version, keeps the version as a preference,
and parses its text anew once that is saved. -/
def switchTo (s : Session) (d : Directory) (version : String) (loaded : Except Failure Engine) :
    Change Unit :=
  match loaded with
  | .error e => ⟨s, d, .error e⟩
  | .ok engine =>
      let change := { s with engine }.prefer d { s.preferences with parserVersion := some version }
      match change.result with
      | .ok () => { change with session := change.session.reparse }
      | .error _ => change

def switchVersion (s : Session) (d : Directory) (registry : Registry) (version : String) :
    Change Unit :=
  s.switchTo d version (registry.load version)

def displayOption : Option String → List Char
  | some s => "Some(".toList ++ Text.quoted s.toList ++ [')']
  | none => "None".toList

def display (s : Session) : List Char :=
  let p := s.preferences
  let theme := match p.theme with
    | .light => "Light"
    | .dark => "Dark"
  let location := if p.location then "true" else "false"
  "Session \x7b config: PlaygroundConfig \x7b theme: ".toList ++ theme.toList
    ++ ", location: ".toList ++ location.toList
    ++ ", parser_version: ".toList ++ displayOption p.parserVersion
    ++ " \x7d, config_path: ".toList ++ displayOption s.file
    ++ ", parser: ".toList ++ Text.quoted s.engine.version.toList
    ++ ", scene_name: ".toList ++ Text.quoted s.sceneName.toList
    ++ ", parse_time: *, .. \x7d".toList

end Session
end SceneScript
