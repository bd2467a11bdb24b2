import SceneScript.Number.Power
import SceneScript.Sorting.Small

/-!
Sorting lists of any length, with equal values in the order in which they come. A list is cut into
runs: those that are in order already, short ones that are sorted at once, and others that are only
sorted when a run that is in order comes beside them. Neighbours are joined in the order that their
places ask for.
-/

namespace SceneScript.Sorting

def greatestInserted : Nat := 20

def greatestSmall : Nat := 32

section

variable {α : Type} (less : α → α → Bool)

def merge (l r : List α) : List α :=
  if l.length ≤ r.length then l.merge r fun x y => !less y x
  else (r.reverse.merge l.reverse fun y x => !less y x).reverse

def chainLength (follows : α → α → Bool) : List α → Nat
  | x :: y :: rest => if follows x y then chainLength follows (y :: rest) + 1 else 1
  | xs => xs.length

def naturalRun : List α → Nat × Bool
  | x :: y :: rest =>
      if less y x then (chainLength (fun x y => less y x) (x :: y :: rest), true)
      else (chainLength (fun x y => !less y x) (x :: y :: rest), false)
  | xs => (xs.length, false)

inductive RunKind where
  | ascending
  | descending
  | short
  | unsorted

def nextRun (good : Nat) (eager : Bool) (xs : List α) : Nat × RunKind :=
  let (length, descends) := naturalRun less xs
  if good ≤ length then (length, if descends then .descending else .ascending)
  else if eager then (greatestSmall, .short)
  else (good, .unsorted)

def cut (good : Nat) (eager : Bool) (xs : List α) : List (RunKind × List α) :=
  match xs with
  | [] => []
  | x :: rest =>
      let (length, kind) := nextRun less good eager (x :: rest)
      (kind, x :: rest.take (length - 1)) :: cut good eager (rest.drop (length - 1))
termination_by xs.length
decreasing_by
  rw [List.length_drop, List.length_cons]
  omega

structure Run (α : Type) where
  items : List α
  sorted : Bool

def RunKind.run (items : List α) : RunKind → Option (Run α)
  | ascending => some ⟨items, true⟩
  | descending => some ⟨items.reverse, true⟩
  | short => (smallSort less items).map (⟨·, true⟩)
  | unsorted => some ⟨items, false⟩

/-- The greatest length of a list that can be kept beside the one that is sorted. -/
def greatestKept (length : Nat) : Nat :=
  max (max (length - length / 2) (min length 333333)) 170

def Run.finish (sort : List α → Option (List α)) (run : Run α) : Option (List α) :=
  if run.sorted then some run.items else sort run.items

def joinRuns (sort : List α → Option (List α)) (kept : Nat) (l r : Run α) : Option (Run α) :=
  if l.sorted || r.sorted || kept < l.items.length + r.items.length then do
    return ⟨merge less (← l.finish sort) (← r.finish sort), true⟩
  else some ⟨l.items ++ r.items, false⟩

/-- The depth at which two neighbours are to be joined, from the places at which they start, at
which the second starts, and at which it ends: the first bit in which the middles of the two
differ. -/
def joinDepth (length start middle stop : Nat) : Nat :=
  let scale := (twoTo 62 + length - 1) / length
  let differing := (scale * (start + middle)) ^^^ (scale * (middle + stop))
  if differing = 0 then 64 else 63 - differing.log2

section

variable (join : Run α → Run α → Option (Run α))

/-- Runs with the depths at which they are to be joined with the next, the last first, and a run
behind them that is joined with those that are at least so deep. -/
def settle (depth : Nat) : List (Run α × Nat) → Run α → Option (List (Run α × Nat) × Run α)
  | (l, d) :: stack, r =>
      if depth ≤ d then do settle depth stack (← join l r) else some ((l, d) :: stack, r)
  | [], r => some ([], r)

def joinAll (length : Nat) :
    List (Run α × Nat) → Run α → (stop : Nat) → List (Run α) → Option (Run α)
  | stack, last, _, [] => (settle join 0 stack last).map (·.2)
  | stack, last, stop, next :: runs => do
      let depth := joinDepth length (stop - last.items.length) stop (stop + next.items.length)
      let (stack, last) ← settle join depth stack last
      joinAll length ((last, depth) :: stack) next (stop + next.items.length) runs

end

def goodLength (length : Nat) : Nat :=
  if length ≤ 4096 then min (length - length / 2) 64
  else
    let shift := (1 + length.log2) / 2
    (twoTo shift + length / twoTo shift) / 2

def sortRuns (sort : List α → Option (List α)) (eager : Bool) (xs : List α) :
    Option (List α) := do
  let runs ← (cut less (goodLength xs.length) eager xs).mapM fun (kind, items) =>
    kind.run less items
  match runs with
  | [] => return []
  | first :: runs =>
      let all ← joinAll (joinRuns less sort (greatestKept xs.length)) xs.length [] first
        first.items.length runs
      all.finish sort

def median (a b c : α) : α :=
  if less a b = less a c then (if less b c = less a b then b else c) else a

def sample (valueAt : Nat → α) (start length : Nat) : α :=
  if length < 8 then valueAt start
  else
    let part := length / 8
    median less (sample valueAt start part) (sample valueAt (start + part * 4) part)
      (sample valueAt (start + part * 7) part)
termination_by length
decreasing_by all_goals omega

/-- Sorting around a pivot, so often at most that there are bad ones. A pivot that is the value
which the list is known not to go below has its equals in front. -/
def quicksort : Nat → Option α → List α → Option (List α)
  | _, _, [] => some []
  | limit, least, x :: rest =>
      let xs := x :: rest
      if xs.length ≤ greatestSmall then smallSort less xs
      else
        match limit with
        | 0 => sortRuns less (fun _ => none) true xs
        | limit + 1 =>
            let pivot := sample less (xs.getD · x) 0 xs.length
            let below := xs.filter (less · pivot)
            if below.isEmpty || least.any (!less · pivot) then do
              let above ← quicksort limit none (xs.filter (less pivot ·))
              return xs.filter (!less pivot ·) ++ above
            else do
              let above ← quicksort limit (some pivot) (xs.filter (!less · pivot))
              return (← quicksort limit least below) ++ above

def sort (xs : List α) : Option (List α) :=
  if xs.length ≤ greatestInserted then some (insertionSort less xs)
  else
    sortRuns less (fun ys => quicksort less (2 * ys.length.log2) none ys)
      (xs.length ≤ greatestSmall * 2) xs

end

end SceneScript.Sorting
