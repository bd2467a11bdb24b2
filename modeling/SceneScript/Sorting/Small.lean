/-!
Sorting short lists by insertion, and by merging two halves from both ends at once. Nothing is
assumed of the comparison. If it is not that of an order, the two merges may take a value twice and
leave another one out, and then there is no result.
-/

namespace SceneScript.Sorting

section

variable {α : Type} (less : α → α → Bool)

def insertLast (x : α) : List α → List α
  | [] => [x]
  | y :: ys => if less x y then y :: insertLast x ys else x :: y :: ys

def extend (sorted rest : List α) : List α :=
  (rest.foldl (fun back x => insertLast less x back) sorted.reverse).reverse

def insertionSort (xs : List α) : List α :=
  extend less [] xs

def joinPairs (a b c d : α) : List α :=
  let least := if less c a then c else a
  let greatest := if less d b then b else d
  let left := if less c a then a else if less d b then c else b
  let right := if less d b then d else if less c a then b else c
  if less right left then [least, right, left, greatest] else [least, left, right, greatest]

def sortFour (v₀ v₁ v₂ v₃ : α) : List α :=
  let (a, b) := if less v₁ v₀ then (v₁, v₀) else (v₀, v₁)
  let (c, d) := if less v₃ v₂ then (v₃, v₂) else (v₂, v₃)
  joinPairs less a b c d

def sortHalf : List α → List α
  | v₀ :: v₁ :: v₂ :: v₃ :: rest => extend less (sortFour less v₀ v₁ v₂ v₃) rest
  | xs => insertionSort less xs

def mergeSteps : Nat → List α → List α → List α × List α × List α
  | n + 1, x :: l, y :: r =>
      if less y x then
        let (out, l', r') := mergeSteps n (x :: l) r
        (y :: out, l', r')
      else
        let (out, l', r') := mergeSteps n l (y :: r)
        (x :: out, l', r')
  | _, l, r => ([], l, r)

/-- Two halves merged from both ends, of which the second may be longer by one value. Then there is
one between what the merges have taken. -/
def mergeHalves (l r : List α) : Option (List α) :=
  let (front, l₁, r₁) := mergeSteps less l.length l r
  let (back, r₂, l₂) := mergeSteps (fun y x => less x y) l.length r.reverse l.reverse
  let between := r.length - l.length
  let fromLeft := if l.length < l₁.length + l₂.length then between else 0
  let fromRight := between - fromLeft
  if l₁.length - fromLeft + l₂.length = l.length ∧
      r₁.length - fromRight + r₂.length = r.length then
    some (front ++ (l₁.take fromLeft ++ r₁.take fromRight) ++ back.reverse)
  else none

def leastFours : Nat := 8

def smallSort (xs : List α) : Option (List α) :=
  let sort := if xs.length < leastFours then insertionSort less else sortHalf less
  mergeHalves less (sort (xs.take (xs.length / 2))) (sort (xs.drop (xs.length / 2)))

end

end SceneScript.Sorting
