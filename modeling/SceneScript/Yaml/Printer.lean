import SceneScript.Yaml.Plain
import SceneScript.Yaml.Scalar

/-!
Writing a text as the value of a key outside brackets, in the first of these styles that can hold
it: plain, in single quotes, in double quotes; a text with newlines is a literal block or stands in
double quotes.
-/

namespace SceneScript.Yaml

def hasNeighbours (p q : Char → Bool) : List Char → Bool
  | c :: d :: s => (p c && q d) || hasNeighbours p q (d :: s)
  | _ => false

def hasSpecial (s : List Char) : Bool :=
  s.any (!isPrintable ·)

/-- A blank in front of a line break would be lost. -/
def hasSpaceBreak (s : List Char) : Bool :=
  hasNeighbours (· == ' ') isBreak s

def hasBreakSpace (s : List Char) : Bool :=
  hasNeighbours isBreak (· == ' ') s

def isLeadingIndicator (c : Char) : Bool :=
  "#,[]\x7b\x7d&*!|>'\"%@\x60".toList.contains c

def hasInnerIndicator : List Char → Bool
  | [] => false
  | c :: s =>
      (c == ':' && startsGap s) || (isGap c && s.head? == some '#') || hasInnerIndicator s

def hasIndicator (s : List Char) : Bool :=
  "---".toList.isPrefixOf s || "...".toList.isPrefixOf s ||
    (match s with
      | [] => false
      | c :: t => isLeadingIndicator c || ((c == '?' || c == '-') && startsGap t)) ||
    hasInnerIndicator s

def allowsPlain (s : List Char) : Bool :=
  !(s.any isBreak || hasSpecial s || s.head? == some ' ' || s.getLast? == some ' ' ||
    hasIndicator s)

def allowsSingle (s : List Char) : Bool :=
  !(hasBreakSpace s || hasSpaceBreak s || hasSpecial s)

def allowsLiteral (s : List Char) : Bool :=
  !(s.getLast? == some ' ' || hasSpaceBreak s || hasSpecial s)

def styleOf (s : List Char) : Style :=
  if s.contains '\n' then
    if allowsLiteral s then .literal else .doubleQuoted
  else if !needsQuotes s && allowsPlain s then .plain
  else if allowsSingle s then .singleQuoted
  else .doubleQuoted

def margin : List Char :=
  [' ', ' ']

def singleBody (afterBreak : Bool) : List Char → List Char
  | [] => if afterBreak then margin else []
  | c :: s =>
      if isBreak c then
        (if !afterBreak && c == '\n' then ['\n'] else []) ++ c :: singleBody true s
      else
        (if afterBreak then margin else []) ++ (if c == '\'' then ['\'', '\''] else [c])
          ++ singleBody false s

def upperHex : Nat → Nat → List Char
  | 0, _ => []
  | width + 1, n =>
      let d := n % 16
      upperHex width (n / 16) ++ [Char.ofNat (if d < 10 then 48 + d else 55 + d)]

def escapeCode (c : Char) : List Char :=
  match c with
  | '\x00' => ['0']
  | '\x07' => ['a']
  | '\x08' => ['b']
  | '\t' => ['t']
  | '\n' => ['n']
  | '\x0b' => ['v']
  | '\x0c' => ['f']
  | '\r' => ['r']
  | '\x1b' => ['e']
  | '"' => ['"']
  | '\\' => ['\\']
  | '\x85' => ['N']
  | '\u2028' => ['L']
  | '\u2029' => ['P']
  | _ =>
      let n := c.toNat
      if n ≤ 0xFF then 'x' :: upperHex 2 n
      else if n ≤ 0xFFFF then 'u' :: upperHex 4 n
      else 'U' :: upperHex 8 n

def doubleBody (c : Char) : List Char :=
  if !isPrintable c || isBreak c || c == '"' || c == '\\' then '\\' :: escapeCode c else [c]

def indentHint (s : List Char) : List Char :=
  if s.head?.any fun c => c == ' ' || isBreak c then ['2'] else []

def chompHint (s : List Char) : List Char :=
  match s.reverse with
  | [] => ['-']
  | c :: t =>
      if !isBreak c then ['-']
      else
        match t with
        | [] => ['+']
        | d :: _ => if isBreak d then ['+'] else []

def literalBody (afterBreak : Bool) : List Char → List Char
  | [] => []
  | c :: s =>
      if isBreak c then c :: literalBody true s
      else (if afterBreak then margin else []) ++ c :: literalBody false s

def printed (s : List Char) : List Char :=
  match styleOf s with
  | .literal | .folded =>
      let body := '|' :: indentHint s ++ chompHint s ++ '\n' :: literalBody true s
      if s.getLast?.any isBreak then body else body ++ ['\n']
  | .plain => s ++ ['\n']
  | .singleQuoted => '\'' :: singleBody false s ++ ['\'', '\n']
  | .doubleQuoted => '"' :: s.flatMap doubleBody ++ ['"', '\n']

end SceneScript.Yaml
