import SceneScript.Json.Basic
import SceneScript.Number.Power
import SceneScript.Text.Quoted

namespace SceneScript

inductive Found where
  | null
  | bool (b : Bool)
  | number (n : JsonNumber)
  | string (s : String)
  | sequence
  | map
deriving DecidableEq, Repr

def Found.ofJson : Json → Found
  | .null => null
  | .bool b => bool b
  | .number n => number n
  | .string s => string s
  | .array _ => sequence
  | .object _ => map

inductive DecodeError where
  | invalidType (found : Found) (expected : String)
  | invalidValue (found : Found) (expected : String)
  | invalidLength (length : Nat) (expected : String)
  | missingField (name : String)
  | unknownVariant (name : String) (first second : String)
  | unknownCode (title : String) (code : Nat)
  | noVariant (title : String)
deriving DecidableEq, Repr

def ticked (s : List Char) : List Char :=
  '\x60' :: s ++ ['\x60']

def Found.text : Found → List Char
  | null => "null".toList
  | bool true => "boolean ".toList ++ ticked "true".toList
  | bool false => "boolean ".toList ++ ticked "false".toList
  | number (.whole n) => "integer ".toList ++ ticked (Text.integer n)
  | number (.real x) => "floating point ".toList ++ ticked x.text
  | string s => "string ".toList ++ Text.quoted s.toList
  | sequence => "sequence".toList
  | map => "map".toList

def DecodeError.message : DecodeError → List Char
  | invalidType found expected =>
      "invalid type: ".toList ++ found.text ++ ", expected ".toList ++ expected.toList
  | invalidValue found expected =>
      "invalid value: ".toList ++ found.text ++ ", expected ".toList ++ expected.toList
  | invalidLength length expected =>
      "invalid length ".toList ++ Text.natural length ++ ", expected ".toList ++ expected.toList
  | missingField name => "missing field ".toList ++ ticked name.toList
  | unknownVariant name first second =>
      "unknown variant ".toList ++ ticked name.toList ++ ", expected ".toList
        ++ ticked first.toList ++ " or ".toList ++ ticked second.toList
  | unknownCode title code =>
      "unknown ".toList ++ title.toList ++ " code ".toList ++ Text.natural code
  | noVariant title =>
      "data did not match any variant of untagged enum ".toList ++ title.toList

abbrev Decoder (α : Type) := Json → Except DecodeError α

namespace Decoder

def string : Decoder String
  | .string s => .ok s
  | v => .error (.invalidType (.ofJson v) "a string")

def bool : Decoder Bool
  | .bool b => .ok b
  | v => .error (.invalidType (.ofJson v) "a boolean")

def natural (title : String) (bound : Nat) : Decoder Nat
  | .number (.whole n) =>
      if 0 ≤ n ∧ n < bound then .ok n.toNat
      else .error (.invalidValue (.number (.whole n)) title)
  | v => .error (.invalidType (.ofJson v) title)

def byte : Decoder Nat :=
  natural "u8" (twoTo 8)

def word : Decoder Nat :=
  natural "usize" (twoTo 64)

def list {α : Type} (item : Decoder α) : Decoder (List α)
  | .array items => items.mapM item
  | v => .error (.invalidType (.ofJson v) "a sequence")

def optional {α : Type} (some : Decoder α) : Decoder (Option α)
  | .null => .ok none
  | v => (some v).map Option.some

def check {α : Type} (d : Decoder α) : Decoder Unit :=
  fun v => (d v).map fun _ => ()

end Decoder

/-- The name of a record and the names of its fields, each with a reader that accepts what the
field can hold. -/
structure Shape where
  title : String
  fields : List (String × Decoder Unit)

namespace Shape

def kind (s : Shape) : String :=
  "struct " ++ s.title

/-- The value has the form of a record. Of its known members the first that cannot be read, in the
order written, is the error. -/
def opened (s : Shape) : Decoder Unit
  | .object members => members.forM fun m =>
      match s.fields.lookup m.1 with
      | some read => read m.2
      | none => .ok ()
  | .array _ => .ok ()
  | v => .error (.invalidType (.ofJson v) s.kind)

def field? (s : Shape) (index : Nat) : Json → Option Json
  | .object members => (s.fields[index]?).bind fun f => members.lookup f.1
  | .array items => items[index]?
  | _ => none

def missing (s : Shape) (index : Nat) : Json → DecodeError
  | .array _ => .invalidLength index
      (s.kind ++ " with " ++ String.ofList (Text.natural s.fields.length) ++ " elements")
  | _ => .missingField ((s.fields[index]?).elim "" Prod.fst)

def field {α : Type} (s : Shape) (index : Nat) (read : Decoder α) : Decoder α := fun v =>
  match s.field? index v with
  | some x => read x
  | none => .error (s.missing index v)

def fieldOr {α : Type} (s : Shape) (index : Nat) (fallback : α) (read : Decoder α) : Decoder α :=
  fun v =>
    match s.field? index v with
    | some x => read x
    | none => .ok fallback

def closed (s : Shape) : Decoder Unit
  | .array items =>
      if s.fields.length < items.length then
        .error (.invalidLength items.length "fewer elements in array")
      else .ok ()
  | _ => .ok ()

end Shape
end SceneScript
