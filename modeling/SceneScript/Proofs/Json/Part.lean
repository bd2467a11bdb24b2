import SceneScript.Json.Basic

namespace SceneScript.Json

mutual

def Each (p : Json → Prop) : Json → Prop
  | array items => p (array items) ∧ EachItem p items
  | object members => p (object members) ∧ EachMember p members
  | v => p v

def EachItem (p : Json → Prop) : List Json → Prop
  | [] => True
  | item :: items => Each p item ∧ EachItem p items

def EachMember (p : Json → Prop) : List (String × Json) → Prop
  | [] => True
  | (_, value) :: members => Each p value ∧ EachMember p members

end

mutual

def nesting : Json → Nat
  | array items => nestingItems items + 1
  | object members => nestingMembers members + 1
  | _ => 0

def nestingItems : List Json → Nat
  | [] => 0
  | item :: items => max (nesting item) (nestingItems items)

def nestingMembers : List (String × Json) → Nat
  | [] => 0
  | (_, value) :: members => max (nesting value) (nestingMembers members)

end

mutual

def mapNumbers (f : JsonNumber → JsonNumber) : Json → Json
  | array items => array (mapItems f items)
  | object members => object (mapMembers f members)
  | number n => number (f n)
  | v => v

def mapItems (f : JsonNumber → JsonNumber) : List Json → List Json
  | [] => []
  | item :: items => mapNumbers f item :: mapItems f items

def mapMembers (f : JsonNumber → JsonNumber) : List (String × Json) → List (String × Json)
  | [] => []
  | (key, value) :: members => (key, mapNumbers f value) :: mapMembers f members

end

theorem mapMembers_keys (f : JsonNumber → JsonNumber) (members : List (String × Json)) :
    (mapMembers f members).map Prod.fst = members.map Prod.fst := by
  induction members with
  | nil => rfl
  | cons m members ih => simp [mapMembers, ih]

theorem lookup_mapMembers (f : JsonNumber → JsonNumber) (key : String)
    (members : List (String × Json)) :
    (mapMembers f members).lookup key = (members.lookup key).map (mapNumbers f) := by
  induction members with
  | nil => rfl
  | cons m members ih =>
    obtain ⟨k, v⟩ := m
    simp only [mapMembers, List.lookup_cons]
    cases key == k <;> simp [ih]

theorem eachItem_iff {p : Json → Prop} {items : List Json} :
    EachItem p items ↔ ∀ item ∈ items, Each p item := by
  induction items with
  | nil => simp [EachItem]
  | cons item items ih => simp [EachItem, ih]

def Keyed : Json → Prop
  | object members => (members.map Prod.fst).Nodup
  | _ => True

mutual

theorem Each.mono {p q : Json → Prop} (hpq : ∀ v, p v → q v) : ∀ {v : Json}, Each p v → Each q v
  | array _, h => ⟨hpq _ h.1, EachItem.mono hpq h.2⟩
  | object _, h => ⟨hpq _ h.1, EachMember.mono hpq h.2⟩
  | null, h | bool _, h | number _, h | string _, h => hpq _ h

theorem EachItem.mono {p q : Json → Prop} (hpq : ∀ v, p v → q v) : ∀ {items : List Json},
    EachItem p items → EachItem q items
  | [], _ => trivial
  | _ :: _, h => ⟨h.1.mono hpq, EachItem.mono hpq h.2⟩

theorem EachMember.mono {p q : Json → Prop} (hpq : ∀ v, p v → q v) :
    ∀ {members : List (String × Json)}, EachMember p members → EachMember q members
  | [], _ => trivial
  | _ :: _, h => ⟨h.1.mono hpq, EachMember.mono hpq h.2⟩

end

mutual

theorem mapNumbers_id : ∀ v : Json, mapNumbers id v = v
  | array items => congrArg array (mapItems_id items)
  | object members => congrArg object (mapMembers_id members)
  | null | bool _ | number _ | string _ => rfl

theorem mapItems_id : ∀ items : List Json, mapItems id items = items
  | [] => rfl
  | item :: items => by rw [mapItems, mapNumbers_id item, mapItems_id items]

theorem mapMembers_id : ∀ members : List (String × Json), mapMembers id members = members
  | [] => rfl
  | (key, value) :: members => by rw [mapMembers, mapNumbers_id value, mapMembers_id members]

end

end SceneScript.Json
