import SceneScript.Yaml.Character

namespace SceneScript.Yaml

structure Cursor where
  rest : List Char
  column : Nat
  line : Nat
deriving DecidableEq, Repr

namespace Cursor

def moved (c : Cursor) (rest : List Char) : Cursor :=
  ⟨rest, c.column + (c.rest.length - rest.length), c.line⟩

def skip (c : Cursor) (n : Nat) : Cursor :=
  ⟨c.rest.drop n, c.column + n, c.line⟩

def skipBreak (c : Cursor) : Cursor :=
  match c.rest with
  | d :: s => if isBreak d then ⟨s, 0, c.line + 1⟩ else c
  | [] => c

def skipSpaces (c : Cursor) : Cursor :=
  c.moved (c.rest.dropWhile isSpace)

def lineEnd? (c : Cursor) : Option Cursor :=
  let c := c.skipSpaces
  let c := if c.rest.head? == some '#' then c.moved (c.rest.dropWhile (!isBreak ·)) else c
  if startsBreak c.rest then some c.skipBreak else none

def atMark (mark : Char) (c : Cursor) : Bool :=
  match c.rest with
  | a :: b :: d :: s => c.column == 0 && a == mark && b == mark && d == mark && startsGap s
  | _ => false

def atDocumentMark (c : Cursor) : Bool :=
  c.atMark '-' || c.atMark '.'

end Cursor

structure Gap where
  spaces : List Char
  breaks : List Char
deriving DecidableEq, Repr

/-- Line breaks as they count in a scalar: a single newline is a space, and of several the first is
dropped; other breaks stay. -/
def foldBreaks : List Char → List Char
  | [] => []
  | b :: bs => if b == '\n' then (if bs.isEmpty then [' '] else bs) else b :: bs

def Gap.text (g : Gap) : List Char :=
  if g.breaks.isEmpty then g.spaces else foldBreaks g.breaks

/-- The line breaks of a gap and the place behind it. A tab on a later line may not stand in a
column below `indent`. -/
def gapBreaks (indent : Nat) (broken : Bool) (column line : Nat) :
    List Char → Option (List Char × Cursor)
  | [] => some ([], ⟨[], column, line⟩)
  | c :: s =>
      if isBreak c then
        (gapBreaks indent true 0 (line + 1) s).map fun p => (c :: p.1, p.2)
      else if c == ' ' then gapBreaks indent broken (column + 1) line s
      else if c == '\t' then
        if broken && decide (column < indent) then none
        else gapBreaks indent broken (column + 1) line s
      else some ([], ⟨c :: s, column, line⟩)

def Cursor.gap? (c : Cursor) (indent : Nat) : Option (Gap × Cursor) :=
  (gapBreaks indent false c.column c.line c.rest).map fun p =>
    (⟨c.rest.takeWhile isSpace, p.1⟩, p.2)

/-- The place of the next token and whether a key may stand there: behind blanks, comments and line
breaks. A tab counts as a blank inside brackets and wherever no key may stand; outside brackets a
new line allows a key. -/
def nextToken (flow : Bool) (comment allowed : Bool) (column line : Nat) :
    List Char → Cursor × Bool
  | [] => (⟨[], column, line⟩, allowed)
  | c :: s =>
      if isBreak c then nextToken flow false (allowed || !flow) 0 (line + 1) s
      else if comment || c == ' ' || (c == '\t' && (flow || !allowed)) then
        nextToken flow comment allowed (column + 1) line s
      else if c == '#' then nextToken flow true allowed (column + 1) line s
      else (⟨c :: s, column, line⟩, allowed)

end SceneScript.Yaml
