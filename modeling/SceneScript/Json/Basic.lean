import SceneScript.Number.Shortest

namespace SceneScript

inductive JsonNumber where
  | whole (n : Int)
  | real (x : Binary64)
deriving DecidableEq, Repr

inductive Json where
  | null
  | bool (b : Bool)
  | number (n : JsonNumber)
  | string (s : String)
  | array (items : List Json)
  | object (members : List (String × Json))
deriving Repr, Inhabited

def JsonNumber.text : JsonNumber → List Char
  | .whole n => Text.integer n
  | .real x => x.text

namespace Json

def nat (n : Nat) : Json := .number (.whole n)

def bool? : Json → Option Bool
  | bool b => some b
  | _ => none

def get? (key : String) : Json → Option Json
  | object members => members.lookup key
  | _ => none

def put (key : String) (value : Json) : List (String × Json) → List (String × Json)
  | [] => [(key, value)]
  | (k, v) :: rest => if k = key then (k, value) :: rest else (k, v) :: put key value rest

end Json
end SceneScript
