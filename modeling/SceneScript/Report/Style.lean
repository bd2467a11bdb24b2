import SceneScript.Text.Numeral

namespace SceneScript.Report

inductive Style where
  | bold
  | dimmed
  | red
  | green
  | yellow
  | magenta
  | cyan
  | white
deriving DecidableEq, Repr

namespace Style

def code : Style → Nat
  | bold => 1
  | dimmed => 2
  | red => 31
  | green => 32
  | yellow => 33
  | magenta => 35
  | cyan => 36
  | white => 37

def start (style : Style) : List Char :=
  '\x1b' :: '[' :: Text.natural style.code ++ ['m']

def reset : List Char :=
  ['\x1b', '[', '0', 'm']

/-- The text with a style taken up again wherever the text itself switches it off. -/
def resumed (style : Style) : List Char → List Char
  | [] => []
  | '\x1b' :: '[' :: '0' :: 'm' :: s => reset ++ style.start ++ resumed style s
  | c :: s => c :: resumed style s

def paint (colored : Bool) (style : Style) (s : List Char) : List Char :=
  if colored then style.start ++ style.resumed s ++ reset else s

end Style
end SceneScript.Report
