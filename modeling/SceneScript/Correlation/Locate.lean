import SceneScript.Correlation.Position
import SceneScript.Json.Printer
import SceneScript.Json.Reader
import SceneScript.Text.Lines

namespace SceneScript.Correlation

open Text

inductive LocateError where
  | invalidJson
  | missingSentenceList
  | notAnArray
  | lineOutOfRange (line : Nat)
  | markerNotFound (line found : Nat)
deriving DecidableEq, Repr

def LocateError.message : LocateError → List Char
  | invalidJson => "invalid JSON".toList
  | missingSentenceList => "no sentenceList field in output".toList
  | notAnArray => "sentenceList is not an array".toList
  | lineOutOfRange line => "line number must be at least 1, got ".toList ++ natural line
  | markerNotFound line found =>
      "no sentence for line ".toList ++ natural line ++ ": only ".toList ++ natural found
        ++ " commandRaw markers present".toList

def listKey : List Char :=
  Json.quote "sentenceList".toList

def marker : List Char :=
  Json.quote "commandRaw".toList

def isMarked (line : List Char) : Bool :=
  (before? marker line).isSome

def markedLines (ls : List (List Char)) : List Nat :=
  (ls.zipIdx.filter fun p => isMarked p.1).map Prod.snd

/-- The place of the sentence of a script line. The sentence list is written anew, and its lines
are counted from the line on which its key first stands in the text. -/
def locate (text : List Char) (line : Nat) : Except LocateError Position :=
  match Json.read? text with
  | none => .error .invalidJson
  | some value =>
      match value.get? "sentenceList" with
      | none => .error .missingSentenceList
      | some (.array items) =>
          if line = 0 then .error (.lineOutOfRange line)
          else
            match before? listKey text with
            | none => .error .missingSentenceList
            | some front =>
                let found := markedLines ((Json.array items).prettyLines.map Json.Line.text)
                match found[line - 1]? with
                | some i => .ok (.lineStart (lineIndexAt text (byteLength front) + i + 1))
                | none => .error (.markerNotFound line found.length)
      | some _ => .error .notAnArray

def contextLines : Nat := 2

def select? (text : List Char) (line : Nat) : Option Selection :=
  (locate text line).toOption.map fun p =>
    ⟨max (p.line - contextLines) 1, 1, endLine text p.line, 1⟩

end SceneScript.Correlation
