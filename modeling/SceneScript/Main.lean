import SceneScript.CommandLine.Run

namespace SceneScript.Program

open CommandLine

def workingPlace : IO Place := do
  let folder ← IO.currentDir
  return (Path.ofText folder.toString).steps.filterMap fun
    | .up => none
    | .enter name => some name

def entryAt (place : Place) : IO (Option Entry) := do
  let path := (← IO.currentDir) / Place.text place
  if ← path.isDir then return some .folder
  if ← path.pathExists then
    let bytes ← IO.FS.readBinFile path
    return some (.file (.ofBytes bytes.toList))
  return none

def survey (d : Directory) (path : String) : IO Directory := do
  let p := Path.ofText path
  (Directory.stations (d.start p) p.steps).foldlM (fun d place => do
    match ← entryAt place with
    | some entry => return d.set place entry
    | none => return d) d

def bytesOf : Content → ByteArray
  | .text s => s.toUTF8
  | .binary bytes => ByteArray.mk bytes.toArray

def realize (place : Place) (entry : Entry) : IO Unit :=
  match entry with
  | .folder => IO.FS.createDir (Place.text place)
  | .file content => IO.FS.writeBinFile (Place.text place) (bytesOf content)

def measure (d : Directory) (task : Task) : IO Duration := do
  let .parse script _ base _ := task | return .zero
  let .ok text := d.read script | return .zero
  let started ← IO.monoNanosNow
  let _ ← IO.lazyPure fun _ => Engine.builtin.parse text (sceneName script) base
  let finished ← IO.monoNanosNow
  return .ofNanoseconds (finished - started)

def reportError (messages : List String) : IO Unit := do
  let err ← IO.getStderr
  messages.zipIdx.forM fun (message, i) =>
    err.putStrLn ((if i = 0 then "Error: " else "Caused by: ") ++ message)

def isColored : IO Bool := do
  if (← IO.getEnv "NO_COLOR").isSome then return false
  (← IO.getStdout).isTty

def execute (i : Invocation) : IO UInt32 := do
  let bare := Directory.bare (← workingPlace)
  let d ← (i.config bare :: i.task.files).foldlM survey bare
  let outcome := i.run d (← measure d i.task)
  (outcome.directory.changesSince d).forM fun (place, entry) => realize place entry
  match outcome.result with
  | .ok answer =>
      let printed := answer.printed i.globals.json (← isColored)
      (← IO.getStdout).putStr (String.ofList printed.output)
      (← IO.getStderr).putStr (String.ofList printed.notes)
      return 0
  | .error e =>
      reportError e.messages
      return 1

def refuse (usage : Usage) : IO UInt32 := do
  let target ← if usage.status = 0 then IO.getStdout else IO.getStderr
  target.putStrLn usage.message
  return UInt32.ofNat usage.status

end SceneScript.Program

def main (args : List String) : IO UInt32 :=
  match SceneScript.CommandLine.Invocation.ofArguments args with
  | .ok invocation => SceneScript.Program.execute invocation
  | .error usage => SceneScript.Program.refuse usage
