import SceneScript.Json.Basic
import SceneScript.Number.Power
import SceneScript.Text.Numeral

namespace SceneScript.Json

def skipBlanks (s : List Char) : List Char :=
  s.dropWhile fun c => c == ' ' || c == '\t' || c == '\n' || c == '\r'

inductive Piece where
  | plain (c : Char)
  | unit (n : Nat)
deriving DecidableEq, Repr

def unit? (a b c d : Char) : Option Nat := do
  let a ← Text.hexValue? a
  let b ← Text.hexValue? b
  let c ← Text.hexValue? c
  let d ← Text.hexValue? d
  some (((a * 16 + b) * 16 + c) * 16 + d)

def unescape? : Char → Option Char
  | '"' => some '"'
  | '\\' => some '\\'
  | '/' => some '/'
  | 'b' => some '\x08'
  | 'f' => some '\x0c'
  | 'n' => some '\n'
  | 'r' => some '\r'
  | 't' => some '\t'
  | _ => none

def pieces? : List Char → Option (List Piece × List Char)
  | [] => none
  | '"' :: s => some ([], s)
  | '\\' :: 'u' :: a :: b :: c :: d :: s => do
      let n ← unit? a b c d
      let (ps, rest) ← pieces? s
      some (.unit n :: ps, rest)
  | '\\' :: c :: s => do
      let c ← unescape? c
      let (ps, rest) ← pieces? s
      some (.plain c :: ps, rest)
  | c :: s =>
      if c.toNat < 32 || c == '\\' then none
      else do
        let (ps, rest) ← pieces? s
        some (.plain c :: ps, rest)

def isHighSurrogate (n : Nat) : Bool := 0xD800 ≤ n && n ≤ 0xDBFF

def isLowSurrogate (n : Nat) : Bool := 0xDC00 ≤ n && n ≤ 0xDFFF

def join? : List Piece → Option (List Char)
  | [] => some []
  | .plain c :: ps => (join? ps).map (c :: ·)
  | .unit n :: .unit m :: ps =>
      if isHighSurrogate n then
        if isLowSurrogate m then
          (join? ps).map (Char.ofNat (0x10000 + (n - 0xD800) * 0x400 + (m - 0xDC00)) :: ·)
        else none
      else if isLowSurrogate n then none
      else (join? (.unit m :: ps)).map (Char.ofNat n :: ·)
  | .unit n :: ps =>
      if isHighSurrogate n || isLowSurrogate n then none
      else (join? ps).map (Char.ofNat n :: ·)

def string? (s : List Char) : Option (List Char × List Char) := do
  let (ps, rest) ← pieces? s
  let cs ← join? ps
  some (cs, rest)

structure Numeral where
  negative : Bool
  whole : List Char
  fraction : Option (List Char)
  exponent : Option Int
deriving DecidableEq, Repr

def fraction? : List Char → Option (Option (List Char) × List Char)
  | '.' :: s =>
      let ds := s.takeWhile Char.isDigit
      if ds.isEmpty then none else some (some ds, s.dropWhile Char.isDigit)
  | s => some (none, s)

def power? (s : List Char) : Option (Option Int × List Char) :=
  let read := fun (sign : Int) (t : List Char) =>
    let ds := t.takeWhile Char.isDigit
    if ds.isEmpty then none
    else some (some (sign * (Nat.ofDigitChars 10 ds 0 : Int)), t.dropWhile Char.isDigit)
  match s with
  | [] => some (none, [])
  | c :: t =>
      if c == 'e' || c == 'E' then
        match t with
        | '+' :: u => read 1 u
        | '-' :: u => read (-1) u
        | _ => read 1 t
      else some (none, s)

def unsignedNumeral? (negative : Bool) (s : List Char) : Option (Numeral × List Char) :=
  let whole := s.takeWhile Char.isDigit
  if whole.isEmpty || (whole.head? == some '0' && whole.length != 1) then none
  else do
    let (fraction, rest) ← fraction? (s.dropWhile Char.isDigit)
    let (exponent, rest) ← power? rest
    some (⟨negative, whole, fraction, exponent⟩, rest)

def numeral? : List Char → Option (Numeral × List Char)
  | '-' :: s => unsignedNumeral? true s
  | s => unsignedNumeral? false s

def greatestSignificand : Nat := twoTo 64 - 1

def accumulate (significand : Nat) : List Char → Nat × List Char
  | [] => (significand, [])
  | c :: ds =>
      let next := significand * 10 + (c.toNat - 48)
      if greatestSignificand < next then (significand, c :: ds) else accumulate next ds

/-- The value of a number that has a fraction, an exponent or too many digits: digits that do not
fit the significand count as zeros. -/
def Numeral.real? (n : Numeral) : Option Binary64 := do
  let (significand, skipped) := accumulate 0 n.whole
  let fraction := n.fraction.getD []
  let (significand, unread) := accumulate significand fraction
  let exponent : Int := (skipped.length : Int) - (fraction.length - unread.length : Nat)
  let base ← Binary64.ofRatio n.negative significand 1
  base.scaleByTen (exponent + n.exponent.getD 0)

/-- The value of a number: whole where it is written so and fits 64 bits, except for `-0`. -/
def Numeral.value? (n : Numeral) : Option JsonNumber :=
  let magnitude := Nat.ofDigitChars 10 n.whole 0
  if n.fraction.isSome || n.exponent.isSome then n.real?.map .real
  else if n.negative then
    if 0 < magnitude && magnitude ≤ twoTo 63 then some (.whole (-(magnitude : Int)))
    else n.real?.map .real
  else if magnitude ≤ greatestSignificand then some (.whole magnitude)
  else n.real?.map .real

def items? (one : List Char → Option (Json × List Char)) :
    Nat → List Char → Option (List Json × List Char)
  | 0, _ => none
  | fuel + 1, s => do
      let (v, rest) ← one (skipBlanks s)
      match skipBlanks rest with
      | ',' :: t =>
          let (vs, rest) ← items? one fuel t
          some (v :: vs, rest)
      | ']' :: t => some ([v], t)
      | _ => none

def members? (one : List Char → Option (Json × List Char)) :
    Nat → List Char → Option (List (String × Json) × List Char)
  | 0, _ => none
  | fuel + 1, s =>
      match skipBlanks s with
      | '"' :: t => do
          let (key, rest) ← string? t
          match skipBlanks rest with
          | ':' :: t =>
              let (v, rest) ← one (skipBlanks t)
              match skipBlanks rest with
              | ',' :: t =>
                  let (ms, rest) ← members? one fuel t
                  some ((String.ofList key, v) :: ms, rest)
              | '}' :: t => some ([(String.ofList key, v)], t)
              | _ => none
          | _ => none
      | _ => none

def ofMembers (members : List (String × Json)) : Json :=
  .object (members.foldl (fun ms m => put m.1 m.2 ms) [])

/-- A value at the start of the text, nested at most `depth` deep and with at most `fuel` parts in
each of its parts. -/
def value? (fuel : Nat) : (depth : Nat) → List Char → Option (Json × List Char)
  | _, [] => none
  | _, 'n' :: 'u' :: 'l' :: 'l' :: s => some (.null, s)
  | _, 't' :: 'r' :: 'u' :: 'e' :: s => some (.bool true, s)
  | _, 'f' :: 'a' :: 'l' :: 's' :: 'e' :: s => some (.bool false, s)
  | _, '"' :: s => (string? s).map fun (cs, rest) => (.string (String.ofList cs), rest)
  | 0, '[' :: _ => none
  | 0, '{' :: _ => none
  | depth + 1, '[' :: s =>
      match skipBlanks s with
      | ']' :: t => some (.array [], t)
      | _ => (items? (value? fuel depth) fuel s).map fun (vs, rest) => (.array vs, rest)
  | depth + 1, '{' :: s =>
      match skipBlanks s with
      | '}' :: t => some (.object [], t)
      | _ => (members? (value? fuel depth) fuel s).map fun (ms, rest) => (ofMembers ms, rest)
  | _, s => do
      let (n, rest) ← numeral? s
      let n ← n.value?
      some (.number n, rest)

def greatestDepth : Nat := 127

/-- The value that a text holds, with nothing but blanks around it. No value has more parts than its
text has characters. -/
def read? (s : List Char) : Option Json :=
  match value? s.length greatestDepth (skipBlanks s) with
  | some (v, rest) => if (skipBlanks rest).isEmpty then some v else none
  | none => none

end SceneScript.Json
