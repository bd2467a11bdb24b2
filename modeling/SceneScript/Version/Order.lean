import SceneScript.Number.Power
import SceneScript.Sorting.Runs
import SceneScript.Text.Blank
import SceneScript.Text.Numeral
import SceneScript.Text.Split

namespace SceneScript.Version

open Text

def compareText (a b : List Char) : Ordering :=
  List.compareLex (fun c d => compare c.toNat d.toNat) a b

def number? (component : List Char) : Option Nat :=
  naturalBelow? (twoTo 64) component

/-- Two numbers compare as numbers, and other components as text. -/
def compareComponent (a b : List Char) : Ordering :=
  match number? a, number? b with
  | some m, some n => compare m n
  | _, _ => compareText a b

def compareComponents (a b : List Char) : Ordering :=
  List.compareLex compareComponent (a.splitOn '.') (b.splitOn '.')

/-- The core of a version and its pre-release, without blanks around and `v`s in front. -/
def parts (version : List Char) : List Char × Option (List Char) :=
  let plain := (trim version).dropWhile (· == 'v')
  match cut? '-' plain with
  | some (core, pre) => (core, some pre)
  | none => (plain, none)

def comparePreRelease : Option (List Char) → Option (List Char) → Ordering
  | none, none => .eq
  | none, some _ => .gt
  | some _, none => .lt
  | some a, some b => compareComponents a b

def order (a b : String) : Ordering :=
  let (coreA, preA) := parts a.toList
  let (coreB, preB) := parts b.toList
  (compareComponents coreA coreB).then (comparePreRelease preA preB)

def newer (v w : String) : Bool :=
  order w v = .lt

/-- The versions with the newest first; of equal ones the earlier comes first. `order` is not
transitive on all versions. Sorting promises an order only where it is, and where it is not there
may be no list at all. -/
def newestFirst (versions : List String) : Option (List String) :=
  Sorting.sort newer versions

end SceneScript.Version
