import SceneScript.Json.Basic

namespace SceneScript

inductive Duration where
  | finite (ms : Binary64)
  | infinite (negative : Bool)
  | undefined
deriving DecidableEq, Repr

namespace Duration

def zero : Duration :=
  finite (.zero false)

def ofNanoseconds (n : Nat) : Duration :=
  match Binary64.ofRatio false n 1000000 with
  | some ms => finite ms
  | none => infinite false

def text : Duration → List Char
  | finite ms => ms.twoPlaces
  | infinite false => "inf".toList
  | infinite true => "-inf".toList
  | undefined => "NaN".toList

def toJson : Duration → Json
  | finite ms => .number (.real ms)
  | _ => .null

end Duration
end SceneScript
