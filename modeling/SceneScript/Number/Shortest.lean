import SceneScript.Number.Binary64
import SceneScript.Text.Numeral

namespace SceneScript.Binary64

structure Decimal where
  digits : Nat
  exponent : Int
deriving DecidableEq, Repr

/-- The interval of the reals that round to a number, in quarters of its last place. -/
structure Interval where
  low : Nat
  centre : Nat
  high : Nat
  closed : Bool
  /-- The power of two that a quarter of the last place stands for. -/
  unit : Int
deriving DecidableEq, Repr

def interval (x : Binary64) : Interval where
  low := if x.significand = twoTo 52 ∧ -1074 < x.exponent then 4 * x.significand - 1
    else 4 * x.significand - 2
  centre := 4 * x.significand
  high := 4 * x.significand + 2
  closed := x.significand % 2 = 0
  unit := x.exponent - 2

/-- A grid of decimal numbers beside an interval: the grid point `n` and the place `p` of the
interval are compared through `n * step` and `p * scale`. -/
def Interval.step (i : Interval) (exponent : Int) : Nat :=
  tenTo exponent.toNat * twoTo (-i.unit).toNat

def Interval.scale (i : Interval) (exponent : Int) : Nat :=
  tenTo (-exponent).toNat * twoTo i.unit.toNat

def Interval.holds (i : Interval) (exponent : Int) (n : Nat) : Bool :=
  let point := n * i.step exponent
  let low := i.low * i.scale exponent
  let high := i.high * i.scale exponent
  if i.closed then low ≤ point && point ≤ high else low < point && point < high

/-- The point of the grid that lies in the interval, the nearer one of two and the even one of two
that are equally near. -/
def Interval.pick? (i : Interval) (exponent : Int) : Option Nat :=
  let centre := i.centre * i.scale exponent
  let below := centre / i.step exponent
  let above := below + 1
  match decide (0 < below) && i.holds exponent below, i.holds exponent above with
  | false, false => none
  | true, false => some below
  | false, true => some above
  | true, true =>
      let gapBelow := centre - below * i.step exponent
      let gapAbove := above * i.step exponent - centre
      if gapBelow < gapAbove then some below
      else if gapAbove < gapBelow then some above
      else if below % 2 = 0 then some below else some above

def Interval.search (i : Interval) : Nat → Int → Decimal
  | 0, exponent => ⟨0, exponent⟩
  | tries + 1, exponent =>
      match i.pick? exponent with
      | some n => ⟨n, exponent⟩
      | none => i.search tries (exponent - 1)

/-- The decimal number with the fewest digits that reads back as `x`, whatever its sign. -/
def shortest (x : Binary64) : Decimal :=
  if x.significand = 0 then ⟨0, 0⟩
  else
    let magnitude := x.exponent + x.significand.log2
    x.interval.search 24 (Int.fdiv ((magnitude + 1) * 30103) 100000 + 2)

def zeros (n : Nat) : List Char :=
  List.replicate n '0'

def Decimal.positional (d : Decimal) : List Char :=
  let ds := Text.natural d.digits
  if 0 ≤ d.exponent then ds ++ zeros d.exponent.toNat ++ ['.', '0']
  else
    let places := (-d.exponent).toNat
    let padded := zeros (places + 1 - ds.length) ++ ds
    padded.take (padded.length - places) ++ '.' :: padded.drop (padded.length - places)

def Decimal.scientific (d : Decimal) : List Char :=
  let ds := Text.natural d.digits
  let power := d.exponent + ds.length - 1
  let fraction := match ds.drop 1 with
    | [] => []
    | rest => '.' :: rest
  let exponent := if 0 ≤ power then '+' :: Text.integer power else Text.integer power
  ds.take 1 ++ fraction ++ 'e' :: exponent

def positionalRange : Int × Int := (-5, 15)

def text (x : Binary64) : List Char :=
  let d := x.shortest
  let power := d.exponent + (Text.natural d.digits).length - 1
  let body := if positionalRange.1 ≤ power && power ≤ positionalRange.2 then d.positional
    else d.scientific
  if x.negative then '-' :: body else body

/-- The text of a number with two places, rounded from its exact value; a half goes to the even
neighbour. -/
def twoPlaces (x : Binary64) : List Char :=
  let (num, den) := x.ratio
  let ds := Text.natural (roundQuotient (num * 100) den)
  let padded := zeros (3 - ds.length) ++ ds
  let body := padded.take (padded.length - 2) ++ '.' :: padded.drop (padded.length - 2)
  if x.negative then '-' :: body else body

end SceneScript.Binary64
