import SceneScript.Json.Basic
import SceneScript.Number.Power
import SceneScript.Number.Reading
import SceneScript.Scene.Command

namespace SceneScript

inductive ArgValue where
  | flag (b : Bool)
  | number (n : JsonNumber)
  | text (s : String)
deriving DecidableEq, Repr

namespace ArgValue

/-- The value that raw text stands for: `true` and `false` are flags, numerals that fit are
numbers, and anything else is text. -/
def ofRaw (raw : List Char) : ArgValue :=
  if raw = "true".toList then flag true
  else if raw = "false".toList then flag false
  else
    match Text.integerWithin? (-twoTo 63) (twoTo 63 - 1) raw with
    | some n => number (.whole n)
    | none =>
        match Binary64.ofText? raw with
        | some x => number (.real x)
        | none => text (String.ofList raw)

def text? : ArgValue → Option String
  | text s => some s
  | _ => none

def display : ArgValue → List Char
  | flag true => "true".toList
  | flag false => "false".toList
  | number n => n.text
  | text s => s.toList

end ArgValue

structure Arg where
  key : String
  value : ArgValue
deriving DecidableEq, Repr

structure Asset where
  name : String
  kind : AssetKind
  url : String
  lineNumber : Nat
deriving DecidableEq, Repr

structure Sentence where
  command : Command
  commandRaw : String
  content : String
  args : List Arg
  assets : List Asset
  subScenes : List String
deriving DecidableEq, Repr

def Sentence.arg? (s : Sentence) (key : String) : Option ArgValue :=
  (s.args.find? fun a => a.key == key).map Arg.value

structure Scene where
  name : String := ""
  url : String := ""
  sentences : List Sentence := []
  assets : List Asset := []
  subScenes : List String := []
deriving DecidableEq, Repr, Inhabited

def Scene.sentence? (s : Scene) : Nat → Option Sentence
  | 0 => none
  | n + 1 => s.sentences[n]?

end SceneScript
