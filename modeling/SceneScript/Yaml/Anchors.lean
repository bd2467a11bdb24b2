import SceneScript.Yaml.Node

/-!
Anchors and the nodes that they name. An anchor has the number of the names known when it stands; a
number belongs to the last node that has it.
-/

namespace SceneScript.Yaml

structure Anchors where
  numbers : List (List Char × Nat) := []
  nodes : List (Nat × Node) := []
deriving Repr

inductive Reference where
  | direct (node : Node)
  | shared (number : Nat)
deriving Repr

namespace Anchors

def renumber (name : List Char) (number : Nat) : List (List Char × Nat) → List (List Char × Nat)
  | [] => [(name, number)]
  | (n, k) :: rest => if n = name then (n, number) :: rest else (n, k) :: renumber name number rest

def note (a : Anchors) (anchor : Option (List Char)) (node : Node) : Anchors :=
  match anchor with
  | some name =>
      let number := a.numbers.length
      ⟨renumber name number a.numbers, (number, node) :: a.nodes⟩
  | none => a

mutual

def collect (a : Anchors) : Node → Option Anchors
  | .aliasOf name => if (a.numbers.lookup name).isSome then some a else none
  | .scalar p style text => some (a.note p.anchor (.scalar p style text))
  | .sequence p items => (a.note p.anchor (.sequence p items)).collectItems items
  | .mapping p entries => (a.note p.anchor (.mapping p entries)).collectEntries entries

def collectItems (a : Anchors) : List Node → Option Anchors
  | [] => some a
  | item :: items => do
      let a ← a.collect item
      a.collectItems items

def collectEntries (a : Anchors) : List (Node × Node) → Option Anchors
  | [] => some a
  | (key, value) :: entries => do
      let a ← a.collect key
      let a ← a.collect value
      a.collectEntries entries

end

def refer (a : Anchors) : Node → Option (Reference × Anchors)
  | .aliasOf name => (a.numbers.lookup name).map fun number => (.shared number, a)
  | node => (a.collect node).map fun a => (.direct node, a)

def referEntries (a : Anchors) :
    List (Node × Node) → Option (List (Reference × Reference) × Anchors)
  | [] => some ([], a)
  | (key, value) :: entries => do
      let (key, a) ← a.refer key
      let (value, a) ← a.refer value
      let (entries, a) ← a.referEntries entries
      some ((key, value) :: entries, a)

def target? (a : Anchors) : Reference → Option Node
  | .direct node => some node
  | .shared number => a.nodes.lookup number

end Anchors
end SceneScript.Yaml
