import SceneScript.Number.Power

namespace SceneScript

/-- A finite floating-point number of 64 bits: `significand * 2 ^ exponent`, negated when
`negative`. Every operation forms the exact quotient and rounds it once. -/
structure Binary64 where
  negative : Bool
  significand : Nat
  exponent : Int
  significand_lt : significand < twoTo 53
  exponent_le : exponent ≤ 971
deriving DecidableEq, Repr

namespace Binary64

def zero (negative : Bool) : Binary64 where
  negative := negative
  significand := 0
  exponent := -1074
  significand_lt := Nat.two_pow_pos 53
  exponent_le := by decide

def ofParts (negative : Bool) (significand : Nat) (exponent : Int) : Option Binary64 :=
  if h : significand < twoTo 53 ∧ exponent ≤ 971 then
    some ⟨negative, significand, exponent, h.1, h.2⟩
  else none

/-- The whole number nearest to `num / den`, and the even one of two. -/
def roundQuotient (num den : Nat) : Nat :=
  let low := num / den
  let rest := num % den
  if 2 * rest < den then low
  else if den < 2 * rest then low + 1
  else if low % 2 = 0 then low else low + 1

def floorLog2 (num den : Nat) : Int :=
  let guess : Int := (num.log2 : Int) - (den.log2 : Int)
  if den * twoTo guess.toNat ≤ num * twoTo (-guess).toNat then guess else guess - 1

def ofRatio (negative : Bool) (num den : Nat) : Option Binary64 :=
  if num = 0 then some (zero negative)
  else
    let exponent := max (floorLog2 num den - 52) (-1074)
    let rounded := roundQuotient (num * twoTo (-exponent).toNat) (den * twoTo exponent.toNat)
    let carried := decide (rounded = twoTo 53)
    let significand := if carried then twoTo 52 else rounded
    let exponent := if carried then exponent + 1 else exponent
    ofParts negative significand exponent

def ratio (x : Binary64) : Nat × Nat :=
  (x.significand * twoTo x.exponent.toNat, twoTo (-x.exponent).toNat)

/-- The number nearest to `digits * 10 ^ exponent`. A power of ten that leaves the range of all
numbers is not formed. -/
def ofDecimal (negative : Bool) (digits : Nat) (exponent : Int) : Option Binary64 :=
  let places := exponent + (Nat.toDigits 10 digits).length
  if digits = 0 || places < -330 then some (zero negative)
  else if 310 < places then none
  else ofRatio negative (digits * tenTo exponent.toNat) (tenTo (-exponent).toNat)

def mul (x y : Binary64) : Option Binary64 :=
  let (a, b) := x.ratio
  let (c, d) := y.ratio
  ofRatio (x.negative != y.negative) (a * c) (b * d)

def div (x y : Binary64) : Option Binary64 :=
  let (a, b) := x.ratio
  let (c, d) := y.ratio
  ofRatio (x.negative != y.negative) (a * d) (b * c)

def powerOfTen (n : Nat) : Option Binary64 :=
  ofRatio false (tenTo n) 1

/-- The number times a power of ten, rounded at every step: the power is itself a number of 64
bits, and two divisions are made where one power is not enough. -/
def scaleByTen (x : Binary64) (exponent : Int) : Option Binary64 :=
  if x.significand = 0 then some x
  else if 308 < exponent then none
  else if 0 ≤ exponent then (powerOfTen exponent.toNat).bind x.mul
  else if -308 ≤ exponent then (powerOfTen (-exponent).toNat).bind x.div
  else if -616 ≤ exponent then do
    let y ← (powerOfTen 308).bind x.div
    (powerOfTen (-exponent - 308).toNat).bind y.div
  else some (zero x.negative)

end Binary64
end SceneScript
