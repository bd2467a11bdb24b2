import SceneScript.Yaml.Cursor

namespace SceneScript.Yaml

inductive Style where
  | plain
  | singleQuoted
  | doubleQuoted
  | literal
  | folded
deriving DecidableEq, Repr

def isFlowIndicator (c : Char) : Bool :=
  c == ',' || c == '[' || c == ']' || c == '\x7b' || c == '\x7d'

def plainWord? (flow : Bool) : List Char → Option (List Char × List Char)
  | [] => some ([], [])
  | c :: s =>
      if isGap c then some ([], c :: s)
      else if flow && c == ':' && s.head?.any (fun d => isFlowIndicator d || d == '?') then none
      else if (c == ':' && startsGap s) || (flow && isFlowIndicator c) then some ([], c :: s)
      else (plainWord? flow s).map fun p => (c :: p.1, p.2)

def plainTail? (flow : Bool) (indent : Nat) :
    Nat → Gap → Cursor → Option (List Char × Cursor × Bool)
  | 0, _, _ => none
  | fuel + 1, gap, c =>
      let broken := !gap.breaks.isEmpty
      if c.atDocumentMark || c.rest.head? == some '#' then some ([], c, broken)
      else
        match plainWord? flow c.rest with
        | none => none
        | some (word, rest) =>
            let joined := if word.isEmpty then [] else gap.text ++ word
            let after := c.moved rest
            if rest.isEmpty || !startsGap rest then some (joined, after, broken && word.isEmpty)
            else
              match after.gap? indent with
              | none => none
              | some (next, place) =>
                  if !flow && decide (place.column < indent) then
                    some (joined, place, !next.breaks.isEmpty)
                  else
                    (plainTail? flow indent fuel next place).map fun p => (joined ++ p.1, p.2)

def plain? (flow : Bool) (indent : Nat) (c : Cursor) : Option (List Char × Cursor × Bool) :=
  plainTail? flow indent (c.rest.length + 1) ⟨[], []⟩ c

inductive RunEnd where
  | closed
  | gap
  | continued
deriving DecidableEq, Repr

def singleRun? : List Char → Option (List Char × RunEnd × List Char)
  | [] => none
  | '\'' :: '\'' :: s => (singleRun? s).map fun p => ('\'' :: p.1, p.2)
  | c :: s =>
      if c == '\'' then some ([], .closed, s)
      else if isGap c then some ([], .gap, c :: s)
      else (singleRun? s).map fun p => (c :: p.1, p.2)

def escaped? : Char → Option Char
  | '0' => some '\x00'
  | 'a' => some '\x07'
  | 'b' => some '\x08'
  | 't' => some '\t'
  | '\t' => some '\t'
  | 'n' => some '\n'
  | 'v' => some '\x0b'
  | 'f' => some '\x0c'
  | 'r' => some '\r'
  | 'e' => some '\x1b'
  | ' ' => some ' '
  | '"' => some '"'
  | '/' => some '/'
  | '\\' => some '\\'
  | 'N' => some '\x85'
  | '_' => some '\u00a0'
  | 'L' => some '\u2028'
  | 'P' => some '\u2029'
  | _ => none

def codeLength? : Char → Option Nat
  | 'x' => some 2
  | 'u' => some 4
  | 'U' => some 8
  | _ => none

def character? (n : Nat) : Option Char :=
  if n.isValidChar then some (Char.ofNat n) else none

/-- Where the reading of a run in double quotes stands: in text, behind a backslash, or in front of
`left + 1` more digits of a code point. -/
inductive RunState where
  | text
  | escape
  | code (left value : Nat)
deriving DecidableEq, Repr

def doubleRun? : RunState → List Char → Option (List Char × RunEnd × List Char)
  | _, [] => none
  | .text, c :: s =>
      if c == '"' then some ([], .closed, s)
      else if isGap c then some ([], .gap, c :: s)
      else if c == '\\' then doubleRun? .escape s
      else (doubleRun? .text s).map fun p => (c :: p.1, p.2)
  | .escape, c :: s =>
      if isBreak c then some ([], .continued, s)
      else
        match codeLength? c with
        | some n => doubleRun? (.code (n - 1) 0) s
        | none => do
            let d ← escaped? c
            let p ← doubleRun? .text s
            some (d :: p.1, p.2)
  | .code left value, c :: s => do
      let digit ← Text.hexValue? c
      let value := value * 16 + digit
      match left with
      | left + 1 => doubleRun? (.code left value) s
      | 0 => do
          let d ← character? value
          let p ← doubleRun? .text s
          some (d :: p.1, p.2)

def quotedTail? (run? : List Char → Option (List Char × RunEnd × List Char)) :
    Nat → Cursor → Option (List Char × Cursor)
  | 0, _ => none
  | fuel + 1, c =>
      if c.atDocumentMark then none
      else
        match run? c.rest with
        | none => none
        | some (text, .closed, rest) => some (text, c.moved rest)
        | some (text, .gap, rest) => do
            let (gap, place) ← (c.moved rest).gap? 0
            let p ← quotedTail? run? fuel place
            some (text ++ gap.text ++ p.1, p.2)
        | some (text, .continued, rest) => do
            let (gap, place) ← (⟨rest, 0, c.line + 1⟩ : Cursor).gap? 0
            let p ← quotedTail? run? fuel place
            some (text ++ gap.breaks ++ p.1, p.2)

def quoted? (single : Bool) (c : Cursor) : Option (List Char × Cursor) :=
  quotedTail? (if single then singleRun? else doubleRun? .text) (c.rest.length + 1) c

/-- What is done with the line breaks at the end of a block: all but the first are dropped, all are
dropped, or all are kept. -/
inductive Chomping where
  | clip
  | strip
  | keep
deriving DecidableEq, Repr

def chomping? : List Char → Option (Chomping × List Char)
  | '+' :: s => some (.keep, s)
  | '-' :: s => some (.strip, s)
  | _ => none

def increment? : List Char → Option (Nat × List Char)
  | [] => some (0, [])
  | c :: s =>
      if c == '0' then none
      else if c.isDigit then some (c.toNat - 48, s)
      else some (0, c :: s)

def blockHeader? (s : List Char) : Option (Chomping × Nat × List Char) :=
  match chomping? s with
  | some (chomping, s) => do
      let (increment, s) ← increment? s
      some (chomping, increment, s)
  | none => do
      let (increment, s) ← increment? s
      if increment = 0 then some (.clip, 0, s)
      else
        match chomping? s with
        | some (chomping, s) => some (chomping, increment, s)
        | none => some (.clip, increment, s)

/-- The empty lines of a block: their breaks, the deepest column reached, and the place where the
next line has text. With `known` zero the indentation is not yet known. -/
def blockBreaks (known deepest column line : Nat) :
    List Char → Option (List Char × Nat × Cursor)
  | [] => some ([], max deepest column, ⟨[], column, line⟩)
  | c :: s =>
      let inIndent := decide (known = 0) || decide (column < known)
      if c == ' ' && inIndent then blockBreaks known deepest (column + 1) line s
      else if c == '\t' && inIndent then none
      else if isBreak c then
        (blockBreaks known (max deepest column) 0 (line + 1) s).map fun p => (c :: p.1, p.2)
      else some ([], max deepest column, ⟨c :: s, column, line⟩)

structure LineEnd where
  first : List Char
  more : List Char
deriving DecidableEq, Repr

/-- The text between two lines of a block. Between two lines of a folded block that do not start
with a blank, a single newline counts as a space. -/
def LineEnd.joining (e : LineEnd) (folds : Bool) : List Char :=
  if folds && e.first == ['\n'] then (if e.more.isEmpty then [' '] else e.more)
  else e.first ++ e.more

def startsSpace (s : List Char) : Bool :=
  s.head?.any isSpace

def blockLines? (literal : Bool) (indent : Nat) :
    Nat → LineEnd → Bool → Cursor → Option (List Char × LineEnd × Cursor)
  | 0, _, _, _ => none
  | fuel + 1, lineEnd, afterBlank, c =>
      if c.column != indent || c.rest.isEmpty then some ([], lineEnd, c)
      else
        let blank := startsSpace c.rest
        let joining := lineEnd.joining (!literal && !afterBlank && !blank)
        let text := c.rest.takeWhile (!isBreak ·)
        let left := c.rest.dropWhile (!isBreak ·)
        let after := (c.moved left).skipBreak
        match blockBreaks indent 0 after.column after.line after.rest with
        | none => none
        | some (more, _, place) =>
            (blockLines? literal indent fuel ⟨left.take 1, more⟩ blank place).map fun p =>
              (joining ++ text ++ p.1, p.2)

def block? (literal : Bool) (parent : Int) (c : Cursor) : Option (List Char × Cursor) := do
  let (chomping, increment, rest) ← blockHeader? c.rest
  let c ← (c.moved rest).lineEnd?
  let given := if increment = 0 then 0 else (max parent 0).toNat + increment
  let (breaks, deepest, place) ← blockBreaks given 0 c.column c.line c.rest
  let indent := if given = 0 then max (max deepest (parent + 1).toNat) 1 else given
  let (text, lineEnd, place) ←
    blockLines? literal indent (c.rest.length + 1) ⟨[], breaks⟩ false place
  let tail := match chomping with
    | .strip => []
    | .clip => lineEnd.first
    | .keep => lineEnd.first ++ lineEnd.more
  some (text ++ tail, place)

end SceneScript.Yaml
