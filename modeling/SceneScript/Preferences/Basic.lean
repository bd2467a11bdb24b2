import SceneScript.Json.Decode

namespace SceneScript

inductive Theme where
  | light
  | dark
deriving DecidableEq, Repr, Inhabited

namespace Theme

def toggled : Theme → Theme
  | light => dark
  | dark => light

def name : Theme → String
  | light => "light"
  | dark => "dark"

def ofName? (s : String) : Option Theme :=
  if s = "light" then some light
  else if s = "dark" then some dark
  else none

def editorTheme : Theme → String
  | light => "webgal-theme"
  | dark => "webgal-theme-dark"

/-- A theme is its name, or the name as the only key of a map whose value is null. -/
def decode : Decoder Theme
  | .string s => named s
  | .object [(s, v)] => do
      let theme ← named s
      match v with
      | .null => .ok theme
      | _ => .error (.invalidType (.ofJson v) "unit")
  | .object _ => .error (.invalidValue .map "map with a single key")
  | v => .error (.invalidType (.ofJson v) "string or map")
where
  named (s : String) : Except DecodeError Theme :=
    match ofName? s with
    | some theme => .ok theme
    | none => .error (.unknownVariant s light.name dark.name)

end Theme

structure Preferences where
  theme : Theme := .light
  location : Bool := false
  parserVersion : Option String := none
deriving DecidableEq, Repr, Inhabited

namespace Preferences

def toJson (p : Preferences) : Json :=
  .object ([("theme", .string p.theme.name), ("location", .bool p.location)]
    ++ p.parserVersion.toList.map fun v => ("parser-version", .string v))

def shape : Shape where
  title := "PlaygroundConfig"
  fields := [("theme", .check Theme.decode), ("location", .check .bool),
    ("parser-version", .check (.optional .string))]

def decode : Decoder Preferences := fun v => do
  shape.opened v
  let theme ← shape.fieldOr 0 .light Theme.decode v
  let location ← shape.fieldOr 1 false .bool v
  let parserVersion ← shape.fieldOr 2 none (.optional .string) v
  shape.closed v
  return ⟨theme, location, parserVersion⟩

end Preferences
end SceneScript
