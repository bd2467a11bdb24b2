import SceneScript.Script.Engine

namespace SceneScript.Script

open Text

theorem parseLines_length (base : List Char) (number : Nat) (ls : List (List Char)) :
    (parseLines base number ls).length = ls.length := by
  induction ls generalizing number with
  | nil => rfl
  | cons l ls ih => simp [parseLines, ih]

theorem parse_sentences_length (text name base : String) :
    (parse text name base).sentences.length = (lines text.toList).length :=
  parseLines_length _ _ _

theorem lines_ne_nil (s : List Char) : lines s ≠ [] :=
  List.splitOn_ne_nil _ _

end SceneScript.Script

namespace SceneScript.Engine

inductive ByLine : Engine → Prop
  | builtin : ByLine builtin
  | tagged (tag : String) : ByLine (tagged tag)

theorem ByLine.parse_sentences_length {e : Engine} (h : e.ByLine) (text name base : String) :
    (e.parse text name base).sentences.length = (Text.lines text.toList).length := by
  cases h with
  | builtin => exact Script.parse_sentences_length text name base
  | tagged tag => exact Script.parse_sentences_length text name base

end SceneScript.Engine
