import SceneScript.Number.Power
import SceneScript.Number.Reading
import SceneScript.Text.Numeral

namespace SceneScript.Yaml

def isNull (s : List Char) : Bool :=
  ["null", "Null", "NULL", "~"].contains (String.ofList s)

def bool? (s : List Char) : Option Bool :=
  if ["true", "True", "TRUE"].contains (String.ofList s) then some true
  else if ["false", "False", "FALSE"].contains (String.ofList s) then some false
  else none

def isDigitOf (base : Nat) (c : Char) : Bool :=
  if base = 16 then c.isDigit || ('a' ≤ c && c ≤ 'f') || ('A' ≤ c && c ≤ 'F')
  else c.isDigit && c.toNat - 48 < base

def digitValue (c : Char) : Nat :=
  if c.isDigit then c.toNat - 48 else c.toNat % 32 + 9

def isNumeral (base greatest : Nat) (s : List Char) : Bool :=
  !s.isEmpty && s.all (isDigitOf base) &&
    decide (s.foldl (fun n c => n * base + digitValue c) 0 ≤ greatest)

def base? : Char → Option Nat
  | 'x' => some 16
  | 'o' => some 8
  | 'b' => some 2
  | _ => none

def isBased (s : List Char) : Bool :=
  let (greatest, t) := match s with
    | '-' :: t => (twoTo 127, t)
    | '+' :: t => (twoTo 128 - 1, t)
    | _ => (twoTo 128 - 1, s)
  match t with
  | '0' :: c :: ds => (base? c).any fun base => isNumeral base greatest ds
  | _ => false

def isSpecialNumber (s : List Char) : Bool :=
  [".inf", ".Inf", ".INF", "+.inf", "+.Inf", "+.INF", "-.inf", "-.Inf", "-.INF", ".nan", ".NaN",
    ".NAN"].contains (String.ofList s)

/-- Digits with a leading zero, which are no number but look like one. -/
def isPadded (s : List Char) : Bool :=
  let digits := match s with
    | '-' :: t => t
    | '+' :: t => t
    | _ => s
  digits.head? == some '0' && digits.length != 1 && digits.all Char.isDigit

def needsQuotes (s : List Char) : Bool :=
  s.isEmpty || isNull s || (bool? s).isSome || isBased s || isSpecialNumber s ||
    isPadded s || (Binary64.ofText? s).isSome

end SceneScript.Yaml
