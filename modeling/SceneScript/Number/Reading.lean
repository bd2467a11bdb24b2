import SceneScript.Number.Binary64
import SceneScript.Text.Numeral

namespace SceneScript.Binary64

def mantissa? (s : List Char) : Option (Nat × Int) :=
  let whole := s.takeWhile Char.isDigit
  let fraction := match s.dropWhile Char.isDigit with
    | [] => some []
    | '.' :: t => if t.all Char.isDigit then some t else none
    | _ => none
  match fraction with
  | none => none
  | some fraction =>
      if whole.isEmpty && fraction.isEmpty then none
      else some (Nat.ofDigitChars 10 (whole ++ fraction) 0, -(fraction.length : Int))

def exponent? : List Char → Option Int
  | '+' :: t => (Text.digits? t).map fun n => (n : Int)
  | '-' :: t => (Text.digits? t).map fun n => -(n : Int)
  | t => (Text.digits? t).map fun n => (n : Int)

def unsigned? (s : List Char) : Option (Nat × Int) :=
  let isMark := fun c => c == 'e' || c == 'E'
  match s.dropWhile (!isMark ·) with
  | [] => mantissa? s
  | _ :: t => do
      let (digits, shift) ← mantissa? (s.takeWhile (!isMark ·))
      let power ← exponent? t
      some (digits, shift + power)

def ofText? : List Char → Option Binary64
  | '+' :: t => (unsigned? t).bind fun (digits, exponent) => ofDecimal false digits exponent
  | '-' :: t => (unsigned? t).bind fun (digits, exponent) => ofDecimal true digits exponent
  | t => (unsigned? t).bind fun (digits, exponent) => ofDecimal false digits exponent

end SceneScript.Binary64
