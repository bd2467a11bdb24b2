namespace SceneScript.Text

def digits? (s : List Char) : Option Nat :=
  if s.isEmpty || !s.all Char.isDigit then none
  else some (Nat.ofDigitChars 10 s 0)

def hexValue? (c : Char) : Option Nat :=
  if c.isDigit then some (c.toNat - 48)
  else if 'a' ≤ c && c ≤ 'f' then some (c.toNat - 87)
  else if 'A' ≤ c && c ≤ 'F' then some (c.toNat - 55)
  else none

def naturalBelow? (bound : Nat) (s : List Char) : Option Nat :=
  let magnitude := match s with
    | '+' :: t => digits? t
    | _ => digits? s
  magnitude.filter (· < bound)

def integerWithin? (least greatest : Int) (s : List Char) : Option Int :=
  let value : Option Int := match s with
    | '+' :: t => (digits? t).map fun n => (n : Int)
    | '-' :: t => (digits? t).map fun n => -(n : Int)
    | _ => (digits? s).map fun n => (n : Int)
  value.filter fun n => least ≤ n && n ≤ greatest

def natural (n : Nat) : List Char :=
  Nat.toDigits 10 n

def integer : Int → List Char
  | .ofNat n => natural n
  | .negSucc n => '-' :: natural (n + 1)

end SceneScript.Text
