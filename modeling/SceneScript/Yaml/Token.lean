import SceneScript.Yaml.Scalar

/-!
The tokens of YAML text. Indentation becomes tokens of its own, and so does a key, which is
recognised only at the colon behind it: its token is put in front of what has been read since.
-/

namespace SceneScript.Yaml

inductive Token where
  | version (major minor : Nat)
  | handle (name start : List Char)
  | documentStart
  | documentEnd
  | blockSequence
  | blockMapping
  | blockEnd
  | flowSequence
  | flowSequenceEnd
  | flowMapping
  | flowMappingEnd
  | blockEntry
  | flowEntry
  | key
  | value
  | aliasOf (name : List Char)
  | anchor (name : List Char)
  | tag (handle suffix : List Char)
  | scalar (style : Style) (text : List Char)
deriving DecidableEq, Repr

/-- A token that may turn out to start a key: how many tokens come before it, where it stands, how
much text was left there, and whether nothing else can stand there. -/
structure Candidate where
  position : Nat
  column : Nat
  line : Nat
  left : Nat
  required : Bool
deriving DecidableEq, Repr

/-- The state of the reading. Tokens are kept with the last one first. There is one candidate for
each level of brackets, and one outside them. -/
structure Lexer where
  cursor : Cursor
  tokens : List Token
  indent : Int
  indents : List Int
  candidates : List (Option Candidate)
  keyAllowed : Bool
deriving DecidableEq, Repr

namespace Lexer

def inFlow (l : Lexer) : Bool :=
  decide (1 < l.candidates.length)

def emit (l : Lexer) (t : Token) : Lexer :=
  { l with tokens := t :: l.tokens }

def emitAt (l : Lexer) (position : Nat) (t : Token) : Lexer :=
  { l with tokens := l.tokens.insertIdx (l.tokens.length - position) t }

def allowing (l : Lexer) (allowed : Bool) : Lexer :=
  { l with keyAllowed := allowed }

def moveTo (l : Lexer) (c : Cursor) : Lexer :=
  { l with cursor := c }

def candidate? (l : Lexer) : Option Candidate :=
  l.candidates.head?.join

/-- The innermost candidate is given up, which is an error where a key is required. -/
def dropCandidate (l : Lexer) : Option Lexer :=
  if l.candidate?.any Candidate.required then none
  else some { l with candidates := none :: l.candidates.tail }

def saveCandidate (l : Lexer) : Option Lexer :=
  if l.keyAllowed then do
    let l ← l.dropCandidate
    let candidate : Candidate :=
      { position := l.tokens.length
        column := l.cursor.column
        line := l.cursor.line
        left := l.cursor.rest.length
        required := !l.inFlow && decide (l.indent = l.cursor.column) }
    some { l with candidates := some candidate :: l.candidates.tail }
  else some l

def greatestKey : Nat := 1024

/-- A candidate is out of date on a later line and when too much text lies between. -/
def isStale (l : Lexer) (c : Candidate) : Bool :=
  decide (c.line < l.cursor.line) || decide (greatestKey < c.left - l.cursor.rest.length)

def dropStale (l : Lexer) : Option Lexer :=
  if l.candidates.any (fun c => c.any fun c => l.isStale c && c.required) then none
  else some { l with candidates := l.candidates.map (Option.filter (!l.isStale ·)) }

/-- A collection opens where the column is deeper than the indentation; its token goes behind the
first `position` ones. -/
def openBlock (l : Lexer) (column position : Nat) (t : Token) : Lexer :=
  if !l.inFlow && decide (l.indent < column) then
    { l.emitAt position t with indent := column, indents := l.indent :: l.indents }
  else l

def closing (column : Int) : Int → List Int → Nat × Int × List Int
  | indent, outer :: outers =>
      if column < indent then
        let (n, rest) := closing column outer outers
        (n + 1, rest)
      else (0, indent, outer :: outers)
  | indent, [] => (0, indent, [])

def closeBlocks (l : Lexer) (column : Int) : Lexer :=
  if l.inFlow then l
  else
    let (n, indent, indents) := closing column l.indent l.indents
    { l with tokens := List.replicate n .blockEnd ++ l.tokens, indent, indents }

def indicator (l : Lexer) (n : Nat) (t : Token) : Lexer :=
  (l.moveTo (l.cursor.skip n)).emit t

def closeAll (l : Lexer) : Option Lexer := do
  let l ← (l.closeBlocks (-1)).dropCandidate
  some (l.allowing false)

def versionNumber? (s : List Char) : Option (Nat × List Char) :=
  let ds := s.takeWhile Char.isDigit
  if ds.isEmpty || decide (9 < ds.length) then none
  else some (Nat.ofDigitChars 10 ds 0, s.dropWhile Char.isDigit)

def isTagChar (full : Bool) (c : Char) : Bool :=
  isName c || ";/?:@&=+$.!~*'()%".toList.contains c || (full && ",[]".toList.contains c)

def octet? : List Char → Option (Nat × List Char)
  | '%' :: a :: b :: s => do
      let a ← Text.hexValue? a
      let b ← Text.hexValue? b
      some (a * 16 + b, s)
  | _ => none

def octetTail? : Nat → Nat → List Char → Option (Nat × List Char)
  | 0, value, s => some (value, s)
  | n + 1, value, s => do
      let (octet, s) ← octet? s
      if octet / 64 = 2 then octetTail? n (value * 64 + octet % 64) s else none

/-- The character that octets stand for; octets that are no character count as U+FFFD. -/
def octetChar? (s : List Char) : Option (Char × List Char) := do
  let (octet, rest) ← octet? s
  let (more, value) ←
    if octet < 0x80 then some (0, octet)
    else if octet / 32 = 6 then some (1, octet % 32)
    else if octet / 16 = 14 then some (2, octet % 16)
    else if octet / 8 = 30 then some (3, octet % 8)
    else none
  let (value, rest) ← octetTail? more value rest
  let least := [0, 0x80, 0x800, 0x10000].getD more 0
  let c := if least ≤ value then (character? value).getD '\uFFFD' else '\uFFFD'
  some (c, rest)

def tagText? (full : Bool) : Nat → List Char → Option (List Char × List Char)
  | 0, _ => none
  | fuel + 1, s =>
      match s with
      | [] => some ([], [])
      | c :: t =>
          if c == '%' then do
            let (d, t) ← octetChar? s
            let p ← tagText? full fuel t
            some (d :: p.1, p.2)
          else if isTagChar full c then do
            let p ← tagText? full fuel t
            some (c :: p.1, p.2)
          else some ([], s)

def handle? : List Char → Option (List Char × List Char)
  | '!' :: s =>
      let name := s.takeWhile isName
      match s.dropWhile isName with
      | '!' :: t => some ('!' :: name ++ ['!'], t)
      | t => some ('!' :: name, t)
  | _ => none

def directive? (s : List Char) : Option (Token × List Char) := do
  let name := s.takeWhile isName
  let rest := s.dropWhile isName
  if name.isEmpty || !startsGap rest then none
  let rest := rest.dropWhile isSpace
  if name = "YAML".toList then
    let (major, rest) ← versionNumber? rest
    match rest with
    | '.' :: rest =>
        let (minor, rest) ← versionNumber? rest
        some (.version major minor, rest)
    | _ => none
  else if name = "TAG".toList then
    let (handle, rest) ← handle? rest
    if handle != ['!'] && handle.getLast? != some '!' then none
    if !startsSpace rest then none
    let rest := rest.dropWhile isSpace
    let (start, rest) ← tagText? true (rest.length + 1) rest
    if start.isEmpty || !startsGap rest then none
    some (.handle handle start, rest)
  else none

def tag? (s : List Char) : Option (Token × List Char) :=
  match s with
  | '!' :: '<' :: t => do
      let (text, rest) ← tagText? true (t.length + 1) t
      match text, rest with
      | _ :: _, '>' :: rest => some (.tag [] text, rest)
      | _, _ => none
  | _ => do
      let (handle, rest) ← handle? s
      if handle.length != 1 && handle.getLast? == some '!' then
        let (suffix, rest) ← tagText? false (rest.length + 1) rest
        if suffix.isEmpty then none
        some (.tag handle suffix, rest)
      else
        let (suffix, rest) ← tagText? false (rest.length + 1) rest
        let suffix := handle.tail ++ suffix
        some (if suffix.isEmpty then .tag [] ['!'] else .tag ['!'] suffix, rest)

def flowScalar (l : Lexer) (style : Style) (read : Cursor → Option (List Char × Cursor)) :
    Option Lexer := do
  let l ← l.saveCandidate
  let (text, place) ← read l.cursor
  some (((l.allowing false).moveTo place).emit (.scalar style text))

def plainScalar (l : Lexer) : Option Lexer := do
  let l ← l.saveCandidate
  let (text, place, broken) ← plain? l.inFlow (l.indent + 1).toNat l.cursor
  some (((l.allowing broken).moveTo place).emit (.scalar .plain text))

def blockScalar (l : Lexer) (literal : Bool) : Option Lexer := do
  let l ← l.dropCandidate
  let (text, place) ← block? literal l.indent (l.cursor.skip 1)
  let style := if literal then .literal else .folded
  some (((l.allowing true).moveTo place).emit (.scalar style text))

def named (l : Lexer) (token : List Char → Token) : Option Lexer := do
  let l ← l.saveCandidate
  let s := l.cursor.rest.tail
  let name := s.takeWhile isName
  let rest := s.dropWhile isName
  if name.isEmpty || !(startsGap rest || rest.head?.any ("?:,]\x7d%@\x60".toList.contains ·)) then
    none
  some (((l.allowing false).moveTo (l.cursor.moved rest)).emit (token name))

def tagged (l : Lexer) : Option Lexer := do
  let l ← l.saveCandidate
  let (token, rest) ← tag? l.cursor.rest
  if !startsGap rest && !(l.inFlow && rest.head? == some ',') then none
  some (((l.allowing false).moveTo (l.cursor.moved rest)).emit token)

def directive (l : Lexer) : Option Lexer := do
  let l ← l.closeAll
  let (token, rest) ← directive? l.cursor.rest.tail
  let place ← (l.cursor.moved rest).lineEnd?
  some ((l.moveTo place).emit token)

def flowStart (l : Lexer) (t : Token) : Option Lexer := do
  let l ← l.saveCandidate
  let l := { l with candidates := none :: l.candidates }
  some ((l.allowing true).indicator 1 t)

def flowEnd (l : Lexer) (t : Token) : Option Lexer := do
  let l ← l.dropCandidate
  let l := if l.inFlow then { l with candidates := l.candidates.tail } else l
  some ((l.allowing false).indicator 1 t)

def flowEntry (l : Lexer) : Option Lexer := do
  let l ← l.dropCandidate
  some ((l.allowing true).indicator 1 .flowEntry)

def openHere (l : Lexer) (t : Token) : Option Lexer :=
  if l.inFlow then some l
  else if l.keyAllowed then some (l.openBlock l.cursor.column l.tokens.length t)
  else none

def blockEntry (l : Lexer) : Option Lexer := do
  let l ← l.openHere .blockSequence
  let l ← l.dropCandidate
  some ((l.allowing true).indicator 1 .blockEntry)

def keyMark (l : Lexer) : Option Lexer := do
  let l ← l.openHere .blockMapping
  let l ← l.dropCandidate
  some ((l.allowing (!l.inFlow)).indicator 1 .key)

def valueMark (l : Lexer) : Option Lexer :=
  match l.candidate? with
  | some c =>
      let l := (l.emitAt c.position .key).openBlock c.column c.position .blockMapping
      let l := { l with candidates := none :: l.candidates.tail }
      some ((l.allowing false).indicator 1 .value)
  | none => do
      let l ← l.openHere .blockMapping
      some ((l.allowing (!l.inFlow)).indicator 1 .value)

def documentMark (l : Lexer) (t : Token) : Option Lexer := do
  let l ← l.closeAll
  some (l.indicator 3 t)

def indicators : List Char :=
  "-?:,[]\x7b\x7d#&*!|>'\"%@\x60".toList

def token? (l : Lexer) (c : Char) (s : List Char) : Option Lexer :=
  if l.cursor.column == 0 && c == '%' then l.directive
  else if l.cursor.atMark '-' then l.documentMark .documentStart
  else if l.cursor.atMark '.' then l.documentMark .documentEnd
  else if c == '[' then l.flowStart .flowSequence
  else if c == '\x7b' then l.flowStart .flowMapping
  else if c == ']' then l.flowEnd .flowSequenceEnd
  else if c == '\x7d' then l.flowEnd .flowMappingEnd
  else if c == ',' then l.flowEntry
  else if c == '-' && startsGap s then l.blockEntry
  else if c == '?' && (l.inFlow || startsGap s) then l.keyMark
  else if c == ':' && (l.inFlow || startsGap s) then l.valueMark
  else if c == '*' then l.named .aliasOf
  else if c == '&' then l.named .anchor
  else if c == '!' then l.tagged
  else if c == '|' && !l.inFlow then l.blockScalar true
  else if c == '>' && !l.inFlow then l.blockScalar false
  else if c == '\'' then l.flowScalar .singleQuoted fun p => quoted? true (p.skip 1)
  else if c == '"' then l.flowScalar .doubleQuoted fun p => quoted? false (p.skip 1)
  else if !(isGap c || indicators.contains c) || (c == '-' && !startsSpace s)
      || (!l.inFlow && (c == '?' || c == ':') && !startsGap s) then l.plainScalar
  else none

def run (fuel : Nat) (l : Lexer) : Option (List Token) :=
  match fuel with
  | 0 => none
  | fuel + 1 => do
      let (place, allowed) :=
        nextToken l.inFlow false l.keyAllowed l.cursor.column l.cursor.line l.cursor.rest
      let l ← ((l.moveTo place).allowing allowed).dropStale
      match place.rest with
      | [] => do
          let l ← l.closeAll
          some l.tokens.reverse
      | c :: s => do
          let l ← (l.closeBlocks place.column).token? c s
          run fuel l

def start (s : List Char) : Lexer where
  cursor := match s with
    | '\uFEFF' :: t => ⟨t, 1, 0⟩
    | _ => ⟨s, 0, 0⟩
  tokens := []
  indent := -1
  indents := []
  candidates := [none]
  keyAllowed := true

end Lexer

def tokens? (s : List Char) : Option (List Token) :=
  if s.all isReadable then
    let s := unifyBreaks s
    (Lexer.start s).run (s.length + 1)
  else none

end SceneScript.Yaml
