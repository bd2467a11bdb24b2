import SceneScript.Json.Basic

namespace SceneScript

structure Position where
  line : Nat
  column : Nat
deriving DecidableEq, Repr

namespace Position

def lineStart (line : Nat) : Position :=
  ⟨line, 1⟩

def display (p : Position) : List Char :=
  Text.natural p.line ++ ':' :: Text.natural p.column

def toJson (p : Position) : Json :=
  .object [("line", .nat p.line), ("column", .nat p.column)]

end Position

structure Selection where
  startLine : Nat
  startColumn : Nat
  endLine : Nat
  endColumn : Nat
deriving DecidableEq, Repr

namespace Selection

def lineSpan (s : Selection) : Nat :=
  s.endLine - s.startLine + 1

def containsLine (s : Selection) (line : Nat) : Bool :=
  s.startLine ≤ line && line ≤ s.endLine

def display (s : Selection) : List Char :=
  (Position.mk s.startLine s.startColumn).display
    ++ '-' :: (Position.mk s.endLine s.endColumn).display

def toJson (s : Selection) : Json :=
  .object [("startLine", .nat s.startLine), ("startColumn", .nat s.startColumn),
    ("endLine", .nat s.endLine), ("endColumn", .nat s.endColumn)]

end Selection
end SceneScript
