import SceneScript.CommandLine.Answer
import SceneScript.CommandLine.Invocation
import SceneScript.Session

namespace SceneScript.CommandLine

inductive TaskError where
  | unreadable (path : String) (cause : FileError)
  | unwritable (path : String) (cause : FileError)
  | failure (failure : Failure)
deriving DecidableEq, Repr

def TaskError.messages : TaskError → List String
  | unreadable path cause => ["Failed to read " ++ path, cause.message]
  | unwritable path cause => ["Failed to write " ++ path, cause.message]
  | failure (.file cause) => [(Failure.file cause).message, cause.message]
  | failure f => [f.message]

structure Outcome where
  directory : Directory
  result : Except TaskError Answer

def readText (d : Directory) (path : String) : Except TaskError String :=
  (d.read path).mapError (.unreadable path)

def sceneName (path : String) : String :=
  ((Path.ofText path).fileName?).getD path

def parseFile (d : Directory) (config script : String) (name : Option String) (base : String) :
    Except TaskError Session := do
  let text ← readText d script
  let session ← (Session.opened d config .builtin).mapError .failure
  return (session.withScene (name.getD (sceneName script)) base).setText text

def runParse (d : Directory) (config : String) (elapsed : Duration) (script : String)
    (name : Option String) (base : String) (out : Option String) : Outcome :=
  match parseFile d config script name base with
  | .error e => ⟨d, .error e⟩
  | .ok s =>
      match out with
      | none => ⟨d, .ok (.parsed s.engine.version elapsed s.scene (some s.output))⟩
      | some path =>
          match d.write path s.output with
          | .ok written => ⟨written, .ok (.parsed s.engine.version elapsed s.scene none)⟩
          | .error cause => ⟨d, .error (.unwritable path cause)⟩

def located (text : String) (line : Nat) : Located :=
  ⟨line, (Correlation.locate text.toList line).toOption, Correlation.select? text.toList line⟩

def mapped (s : Session) (line : Nat) : Mapped :=
  ⟨line, s.scene.sentence? line, Correlation.select? s.output.toList line⟩

def linesToMap (scene : Scene) (lines : List Nat) : List Nat :=
  if lines.isEmpty then List.range' 1 scene.sentences.length else lines

def listVersions (d : Directory) (config : String) : Except TaskError Answer := do
  let p ← (Preferences.load d config).mapError .failure
  let all ← Registry.builtin.available.mapError .failure
  return .versions all (p.parserVersion <|> all.head?)

def Setting.apply (d : Directory) (s : Session) : Setting → Change Unit
  | .keep => ⟨s, d, .ok ()⟩
  | .theme choice =>
      if choice.resolve s.preferences.theme = s.preferences.theme then ⟨s, d, .ok ()⟩
      else (s.toggleTheme d).map fun _ => ()
  | .location on => s.setLocation d on
  | .version wanted => s.switchVersion d .builtin wanted

def runConfigure (d : Directory) (config : String) (setting : Setting) : Outcome :=
  match Session.opened d config .builtin with
  | .error e => ⟨d, .error (.failure e)⟩
  | .ok s =>
      let change := setting.apply d s
      let result := do
        change.result
        return Answer.preferences config (← Preferences.load change.directory config)
      ⟨change.directory, result.mapError .failure⟩

def Task.run (d : Directory) (config : String) (elapsed : Duration) : Task → Outcome
  | .greet => ⟨d, .ok .greeting⟩
  | .parse script name base out => runParse d config elapsed script name base out
  | .locate output lines => ⟨d, do return .located (lines.map (located (← readText d output)))⟩
  | .map script lines base =>
      ⟨d, do
        let s ← parseFile d config script none base
        return .mapped ((linesToMap s.scene lines).map (mapped s))⟩
  | .versions => ⟨d, listVersions d config⟩
  | .configure setting => runConfigure d config setting

def Task.files : Task → List String
  | .parse script _ _ out => script :: out.toList
  | .locate file _ | .map file _ _ => [file]
  | .greet | .versions | .configure _ => []

def Invocation.config (i : Invocation) (d : Directory) : String :=
  i.globals.config.getD (Preferences.defaultPath d.homeText)

def Invocation.run (i : Invocation) (d : Directory) (elapsed : Duration) : Outcome :=
  i.task.run d (i.config d) elapsed

end SceneScript.CommandLine
