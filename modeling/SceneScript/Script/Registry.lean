import SceneScript.Failure
import SceneScript.Script.Engine
import SceneScript.Text.Quoted
import SceneScript.Version.Order

namespace SceneScript

structure Registry where
  entries : List (String × Engine) := []

namespace Registry

def empty : Registry := {}

def register (r : Registry) (version : String) (engine : Engine) : Registry where
  entries := r.entries.filter (fun e => e.1 != version) ++ [(version, engine)]

def builtin : Registry :=
  empty.register Engine.builtinVersion Engine.builtin

def versions (r : Registry) : List String :=
  r.entries.map Prod.fst

def available (r : Registry) : Except Failure (List String) :=
  match Version.newestFirst r.versions with
  | some versions => .ok versions
  | none => .error .unordered

def load (r : Registry) (version : String) : Except Failure Engine :=
  match r.entries.lookup version with
  | some engine => .ok engine
  | none => .error (.unknownVersion version)

def newest (r : Registry) : Except Failure String := do
  match ← r.available with
  | version :: _ => .ok version
  | [] => .error .noVersions

def loadNewest (r : Registry) : Except Failure Engine := do
  r.load (← r.newest)

/-- The engine of the wanted version, or the newest where that is not registered or none is
wanted. -/
def choose (r : Registry) : Option String → Except Failure Engine
  | some version =>
      match r.load version with
      | .ok engine => .ok engine
      | .error _ => r.loadNewest
  | none => r.loadNewest

def display (r : Registry) : List Char :=
  let names := r.versions.map fun v => Text.quoted v.toList
  "RegistryProvider \x7b versions: [".toList ++ [',', ' '].intercalate names ++ "] \x7d".toList

end Registry
end SceneScript
