import SceneScript.Text.Blank
import SceneScript.Text.Split

namespace SceneScript.Text

def lineIndexAt : List Char → Nat → Nat
  | [], _ => 0
  | c :: s, offset =>
      if offset = 0 then 0
      else (if c = '\n' then 1 else 0) + lineIndexAt s (offset - c.utf8Size)

def indentation? (line : List Char) : Option Nat :=
  line.findIdx? (!isBlank ·)

def closes (indent : Nat) (line : List Char) : Bool :=
  line.contains '}' && (indentation? line).any (· ≤ indent)

/-- The number of the line that closes the block opened on a line; lines are counted from one. The
last line closes a block that no other line closes, and so it does when there is no such opening
line or when that line is blank. -/
def endLine (text : List Char) (start : Nat) : Nat :=
  let ls := lines text
  let opening := if start = 0 then none else ls[start - 1]?
  let closing := do
    let indent ← indentation? (← opening)
    (ls.drop start).findIdx? (closes indent)
  match closing with
  | some i => start + i + 1
  | none => ls.length

end SceneScript.Text
