import SceneScript.Proofs.Json.Layout
import SceneScript.Proofs.Json.Numeral
import SceneScript.Proofs.Json.Part
import SceneScript.Proofs.Json.Quoted

namespace SceneScript

def JsonNumber.ReadsAs (n m : JsonNumber) : Prop :=
  ∀ s, Json.Stops s → ∃ k : Json.Numeral,
    Json.numeral? (n.text ++ s) = some (k, s) ∧ k.value? = some m

namespace JsonNumber

def Legible (n : JsonNumber) : Prop :=
  ∃ m, n.ReadsAs m

def Faithful (n : JsonNumber) : Prop :=
  ∃ k, n = .whole k ∧ Json.InWord k

def reread (n : JsonNumber) : JsonNumber :=
  ((Json.numeral? n.text).bind fun p => p.1.value?).getD n

theorem Legible.readsAs_reread {n : JsonNumber} (h : n.Legible) : n.ReadsAs n.reread := by
  obtain ⟨m, hm⟩ := h
  obtain ⟨k, hk, hv⟩ := hm [] (.inl rfl)
  rw [List.append_nil] at hk
  have hr : n.reread = m := by simp [reread, hk, hv]
  rwa [hr]

theorem Faithful.readsAs_self {n : JsonNumber} (h : n.Faithful) : n.ReadsAs n := by
  obtain ⟨k, rfl, hk⟩ := h
  exact fun s hs => Json.read_integer hk hs

theorem Faithful.legible {n : JsonNumber} (h : n.Faithful) : n.Legible :=
  ⟨n, h.readsAs_self⟩

end JsonNumber

namespace Json

open Text

theorem skipBlanks_newline (depth : Nat) (s : List Char) :
    skipBlanks ('\n' :: (indent depth ++ s)) = skipBlanks s := by
  simp [skipBlanks, indent]

@[simp]
theorem skipBlanks_space (s : List Char) : skipBlanks (' ' :: s) = skipBlanks s := rfl

@[simp]
theorem skipBlanks_mark {c : Char} (h : c ∈ [',', ':', '"', ']', '\x7d']) (s : List Char) :
    skipBlanks (c :: s) = c :: s := by
  simp only [List.mem_cons, List.not_mem_nil, or_false] at h
  rcases h with rfl | rfl | rfl | rfl | rfl <;> rfl

def Starts (c : Char) : Prop :=
  isNumeral c ∨ c ∈ ['n', 't', 'f', '"', '[', '{']

theorem laid_starts (depth : Nat) (v : Json) : ∃ c s, laid depth v = c :: s ∧ Starts c := by
  cases v with
  | null => exact ⟨'n', _, by simp [laid, atom]; rfl, by simp [Starts]⟩
  | bool b => cases b <;> exact ⟨_, _, by simp [laid, atom]; exact ⟨rfl, rfl⟩, by simp [Starts]⟩
  | number n =>
    obtain ⟨c, s, hc⟩ := List.exists_cons_of_ne_nil n.text_ne_nil
    exact ⟨c, s, by simp [laid, atom, hc], .inl (n.isNumeral_of_mem_text (by simp [hc]))⟩
  | string s => exact ⟨'"', _, by simp [laid, atom, quote_eq]; rfl, by simp [Starts]⟩
  | array items => cases items <;> exact ⟨'[', _, by simp [laid, atom]; rfl, by simp [Starts]⟩
  | object members => cases members <;> exact ⟨'{', _, by simp [laid, atom]; rfl, by simp [Starts]⟩

theorem Starts.skipBlanks {c : Char} (h : Starts c) (s : List Char) :
    skipBlanks (c :: s) = c :: s := by
  have hc : (c == ' ' || c == '\t' || c == '\n' || c == '\r') = false := by
    simp only [Bool.or_eq_false_iff, beq_eq_false_iff_ne]
    obtain h | h := h
    · refine ⟨⟨⟨?_, ?_⟩, ?_⟩, ?_⟩ <;> rintro rfl <;> exact absurd h (by decide)
    · simp only [List.mem_cons, List.not_mem_nil, or_false] at h
      rcases h with rfl | rfl | rfl | rfl | rfl | rfl <;> decide
  simp [Json.skipBlanks, hc]

theorem value?_numeral (fuel depth : Nat) {c : Char} (h : isNumeral c) (s : List Char) :
    value? fuel depth (c :: s) =
      (numeral? (c :: s)).bind fun p => p.1.value?.map fun n => (.number n, p.2) := by
  have hc : c ≠ 'n' ∧ c ≠ 't' ∧ c ≠ 'f' ∧ c ≠ '"' ∧ c ≠ '[' ∧ c ≠ '{' := by
    refine ⟨?_, ?_, ?_, ?_, ?_, ?_⟩ <;> rintro rfl <;> exact absurd h (by decide)
  obtain ⟨h₁, h₂, h₃, h₄, h₅, h₆⟩ := hc
  rw [value?.eq_def]
  split
  any_goals simp_all
  cases numeral? (c :: s) with
  | none => rfl
  | some p => cases hp : p.1.value? <;> simp [hp]

theorem stops_separator {α : Type} (rest : List α) (s : List Char) (hs : Stops s) :
    Stops (separator rest ++ s) := by
  cases rest with
  | nil => exact hs
  | cons a rest => exact .inr ⟨',', s, rfl, .inl rfl⟩

theorem stops_laidItems (depth : Nat) (items : List Json) (s : List Char) (hs : Stops s) :
    Stops (laidItems depth items ++ s) := by
  cases items with
  | nil => exact hs
  | cons item items => exact .inr ⟨'\n', _, by simp [laidItems]; rfl, .inr rfl⟩

theorem stops_laidMembers (depth : Nat) (members : List (String × Json)) (s : List Char)
    (hs : Stops s) : Stops (laidMembers depth members ++ s) := by
  cases members with
  | nil => exact hs
  | cons m members => exact .inr ⟨'\n', _, by simp [laidMembers]; rfl, .inr rfl⟩

theorem length_le_laidItems (depth : Nat) (items : List Json) :
    items.length ≤ (laidItems depth items).length := by
  induction items with
  | nil => simp
  | cons item items ih =>
    simp only [laidItems, List.length_cons, List.length_append]
    omega

theorem length_le_laidMembers (depth : Nat) (members : List (String × Json)) :
    members.length ≤ (laidMembers depth members).length := by
  induction members with
  | nil => simp
  | cons m members ih =>
    simp only [laidMembers, List.length_cons, List.length_append]
    omega

theorem put_of_not_mem {key : String} {value : Json} {members : List (String × Json)}
    (h : key ∉ members.map Prod.fst) : put key value members = members ++ [(key, value)] := by
  induction members with
  | nil => rfl
  | cons m members ih =>
    simp only [List.map_cons, List.mem_cons, not_or] at h
    rw [put, if_neg (Ne.symm h.1), ih h.2, List.cons_append]

theorem foldl_put (members front : List (String × Json))
    (h : ((front ++ members).map Prod.fst).Nodup) :
    members.foldl (fun ms m => put m.1 m.2 ms) front = front ++ members := by
  induction members generalizing front with
  | nil => simp
  | cons m members ih =>
    have hm : m.1 ∉ front.map Prod.fst := by
      simp only [List.map_append, List.map_cons, List.nodup_append, List.mem_cons] at h
      exact fun hm => h.2.2 _ hm _ (.inl rfl) rfl
    rw [List.foldl_cons, put_of_not_mem hm, ih]
    · simp
    · simpa using h

theorem ofMembers_eq {members : List (String × Json)} (h : (members.map Prod.fst).Nodup) :
    ofMembers members = object members := by
  rw [ofMembers, foldl_put members [] (by simpa using h), List.nil_append]

def Takes (one : List Char → Option (Json × List Char)) (depth : Nat) (v w : Json) : Prop :=
  ∀ s, Stops s → one (laid depth v ++ s) = some (w, s)

theorem skipBlanks_laid (depth : Nat) (v : Json) (s : List Char) :
    skipBlanks (laid depth v ++ s) = laid depth v ++ s := by
  obtain ⟨c, t, hc, hs⟩ := laid_starts depth v
  rw [hc, List.cons_append, hs.skipBlanks]

theorem items?_laid {one : List Char → Option (Json × List Char)} {f : JsonNumber → JsonNumber}
    {depth : Nat} (outer : Nat) {items : List Json} {count : Nat} (s : List Char)
    (h : ∀ item ∈ items, Takes one depth item (mapNumbers f item)) (hne : items ≠ [])
    (hc : items.length ≤ count) :
    items? one count (laidItems depth items ++ '\n' :: (indent outer ++ ']' :: s))
      = some (mapItems f items, s) := by
  induction items generalizing count with
  | nil => exact absurd rfl hne
  | cons item items ih =>
    obtain ⟨count, rfl⟩ : ∃ k, count = k + 1 := ⟨count - 1, by simp at hc; omega⟩
    have hitem := h item (by simp)
    have hstop : Stops ('\n' :: (indent outer ++ ']' :: s)) := .inr ⟨'\n', _, rfl, .inr rfl⟩
    have hrest := hitem _ (stops_separator items _ (stops_laidItems depth items _ hstop))
    simp only [laidItems, List.append_assoc, List.cons_append]
    rw [items?, skipBlanks_newline, skipBlanks_laid, hrest]
    cases items with
    | nil => simp [separator, laidItems, skipBlanks_newline, mapItems]
    | cons next items =>
      have hnext := ih (fun i hi => h i (by simp [hi])) (by simp) (by simpa using hc)
      simp [separator, hnext, mapItems]

theorem members?_laid {one : List Char → Option (Json × List Char)} {f : JsonNumber → JsonNumber}
    {depth : Nat} (outer : Nat) {members : List (String × Json)} {count : Nat} (s : List Char)
    (h : ∀ m ∈ members, Takes one depth m.2 (mapNumbers f m.2)) (hne : members ≠ [])
    (hc : members.length ≤ count) :
    members? one count (laidMembers depth members ++ '\n' :: (indent outer ++ '\x7d' :: s))
      = some (mapMembers f members, s) := by
  induction members generalizing count with
  | nil => exact absurd rfl hne
  | cons m members ih =>
    obtain ⟨key, value⟩ := m
    obtain ⟨count, rfl⟩ : ∃ k, count = k + 1 := ⟨count - 1, by simp at hc; omega⟩
    have hvalue := h (key, value) (by simp)
    have hcolon : ':' ∈ [',', ':', '"', ']', '\x7d'] := by simp
    have hstop : Stops ('\n' :: (indent outer ++ '\x7d' :: s)) := .inr ⟨'\n', _, rfl, .inr rfl⟩
    have hrest := hvalue _ (stops_separator members _ (stops_laidMembers depth members _ hstop))
    simp only [laidMembers, label, quote_eq, List.append_assoc, List.cons_append,
      List.nil_append] at hrest ⊢
    rw [members?, skipBlanks_newline, skipBlanks_mark (by simp)]
    simp only [string?_escaped, Option.bind_eq_bind, Option.bind_some, skipBlanks_mark hcolon,
      skipBlanks_space, skipBlanks_laid, hrest, String.ofList_toList]
    cases members with
    | nil => simp [separator, laidMembers, skipBlanks_newline, mapMembers]
    | cons next members =>
      have hnext := ih (fun i hi => h i (by simp [hi])) (by simp) (by simpa using hc)
      simp [separator, hnext, mapMembers]

theorem value?_array {fuel level : Nat} {s : List Char} (h : ∀ t, skipBlanks s ≠ ']' :: t) :
    value? fuel (level + 1) ('[' :: s) =
      (items? (value? fuel level) fuel s).map fun p => (array p.1, p.2) := by
  rw [value?]
  split
  · rename_i t ht
    exact absurd ht (h t)
  · rfl

theorem value?_object {fuel level : Nat} {s : List Char} (h : ∀ t, skipBlanks s ≠ '\x7d' :: t) :
    value? fuel (level + 1) ('\x7b' :: s) =
      (members? (value? fuel level) fuel s).map fun p => (ofMembers p.1, p.2) := by
  rw [value?]
  split
  · rename_i t ht
    exact absurd ht (h t)
  · rfl

theorem skipBlanks_laidItems_ne (depth : Nat) (item : Json) (items : List Json)
    (s t : List Char) : skipBlanks (laidItems depth (item :: items) ++ s) ≠ ']' :: t := by
  obtain ⟨c, u, hc, hs⟩ := laid_starts depth item
  have hne : c ≠ ']' := by
    rintro rfl
    exact absurd hs (by unfold Starts; decide)
  simp only [laidItems, List.append_assoc, List.cons_append]
  rw [skipBlanks_newline, skipBlanks_laid, hc, List.cons_append]
  exact fun h => hne (List.cons.inj h).1

theorem skipBlanks_laidMembers_ne (depth : Nat) (member : String × Json)
    (members : List (String × Json)) (s t : List Char) :
    skipBlanks (laidMembers depth (member :: members) ++ s) ≠ '\x7d' :: t := by
  simp only [laidMembers, label, quote_eq, List.append_assoc, List.cons_append]
  rw [skipBlanks_newline, skipBlanks_mark (by simp)]
  exact fun h => absurd (List.cons.inj h).1 (by decide)

/-- The members of an object have different keys, and numbers have a property. -/
def Regular (p : JsonNumber → Prop) : Json → Prop
  | number n => p n
  | v => v.Keyed

theorem Regular.mono {p q : JsonNumber → Prop} (hpq : ∀ n, p n → q n) {v : Json}
    (h : Regular p v) : Regular q v := by
  cases v with
  | number n => exact hpq n h
  | _ => exact h

def Readable (f : JsonNumber → JsonNumber) : Json → Prop :=
  Regular fun n => n.ReadsAs (f n)

mutual

theorem value?_laid {f : JsonNumber → JsonNumber} {fuel : Nat} : ∀ (v : Json) (depth level : Nat),
    Each (Readable f) v → nesting v ≤ level → (laid depth v).length ≤ fuel →
    Takes (value? fuel level) depth v (mapNumbers f v)
  | null, depth, level, _, _, _, s, _ => by simp [laid, atom, value?, mapNumbers]
  | bool true, depth, level, _, _, _, s, _ => by simp [laid, atom, value?, mapNumbers]
  | bool false, depth, level, _, _, _, s, _ => by simp [laid, atom, value?, mapNumbers]
  | string t, depth, level, _, _, _, s, _ => by
      simp [laid, atom, quote_eq, value?, mapNumbers, string?_escaped]
  | number n, depth, level, hn, _, _, s, hs => by
      obtain ⟨k, hk, hv⟩ := hn s hs
      obtain ⟨c, t, hc⟩ := List.exists_cons_of_ne_nil n.text_ne_nil
      have hnum : isNumeral c := n.isNumeral_of_mem_text (by simp [hc])
      rw [hc, List.cons_append] at hk
      simp [laid, atom, hc, value?_numeral fuel level hnum, hk, hv, mapNumbers]
  | array [], depth, level + 1, _, _, _, s, _ => by
      simp [laid, atom, value?, mapNumbers, mapItems]
  | object [], depth, level + 1, _, _, _, s, _ => by
      simp [laid, atom, value?, mapNumbers, mapMembers]
  | array items, depth, 0, _, h, _, s, _ => by simp [nesting] at h
  | object members, depth, 0, _, h, _, s, _ => by simp [nesting] at h
  | array (item :: items), depth, level + 1, hv, hn, hl, s, _ => by
      simp only [laid, List.length_cons, List.length_append] at hl
      have hfuel : (laidItems (depth + 1) (item :: items)).length ≤ fuel := by omega
      have hitems := items_laid (item :: items) (depth + 1) level hv.2
        (by simpa [nesting] using hn) hfuel
      have hcount := Nat.le_trans (length_le_laidItems (depth + 1) (item :: items)) hfuel
      have hread := items?_laid depth s hitems (by simp) hcount
      simp only [laid, List.append_assoc, List.cons_append, List.nil_append]
      rw [value?_array (skipBlanks_laidItems_ne (depth + 1) item items _), hread]
      rfl
  | object (member :: members), depth, level + 1, hv, hn, hl, s, _ => by
      simp only [laid, List.length_cons, List.length_append] at hl
      have hfuel : (laidMembers (depth + 1) (member :: members)).length ≤ fuel := by omega
      have hmembers := members_laid (member :: members) (depth + 1) level hv.2
        (by simpa [nesting] using hn) hfuel
      have hcount := Nat.le_trans (length_le_laidMembers (depth + 1) (member :: members)) hfuel
      have hread := members?_laid depth s hmembers (by simp) hcount
      have hkeys : ((mapMembers f (member :: members)).map Prod.fst).Nodup := by
        rw [mapMembers_keys]
        exact hv.1
      simp only [laid, List.append_assoc, List.cons_append, List.nil_append]
      rw [value?_object (skipBlanks_laidMembers_ne (depth + 1) member members _), hread]
      simp [ofMembers_eq hkeys, mapNumbers]

theorem items_laid {f : JsonNumber → JsonNumber} {fuel : Nat} : ∀ (items : List Json)
    (depth level : Nat), EachItem (Readable f) items → nestingItems items ≤ level →
    (laidItems depth items).length ≤ fuel →
    ∀ item ∈ items, Takes (value? fuel level) depth item (mapNumbers f item)
  | [], _, _, _, _, _, item, h => by simp at h
  | v :: vs, depth, level, he, hn, hl, item, h => by
      simp only [laidItems, List.length_cons, List.length_append] at hl
      simp only [nestingItems, Nat.max_le] at hn
      rcases List.mem_cons.mp h with h | h
      · exact h ▸ value?_laid v depth level he.1 hn.1 (by omega)
      · exact items_laid vs depth level he.2 hn.2 (by omega) item h

theorem members_laid {f : JsonNumber → JsonNumber} {fuel : Nat} :
    ∀ (members : List (String × Json)) (depth level : Nat), EachMember (Readable f) members →
    nestingMembers members ≤ level → (laidMembers depth members).length ≤ fuel →
    ∀ m ∈ members, Takes (value? fuel level) depth m.2 (mapNumbers f m.2)
  | [], _, _, _, _, _, item, h => by simp at h
  | (key, v) :: ms, depth, level, he, hn, hl, m, h => by
      simp only [laidMembers, List.length_cons, List.length_append] at hl
      simp only [nestingMembers, Nat.max_le] at hn
      rcases List.mem_cons.mp h with h | h
      · exact h ▸ value?_laid v depth level he.1 hn.1 (by omega)
      · exact members_laid ms depth level he.2 hn.2 (by omega) m h

end

theorem read?_pretty {f : JsonNumber → JsonNumber} {v : Json} (hv : Each (Readable f) v)
    (hn : nesting v ≤ greatestDepth) : read? v.pretty = some (mapNumbers f v) := by
  have hl : (laid 0 v).length ≤ v.pretty.length := Nat.le_of_eq (by rw [pretty_eq_laid])
  have hread := value?_laid v 0 greatestDepth hv hn hl [] (.inl rfl)
  have hskip := skipBlanks_laid 0 v []
  rw [List.append_nil, ← pretty_eq_laid] at hread hskip
  simp only [read?, hskip, hread]
  rfl

theorem read?_pretty_of_legible {v : Json} (hv : Each (Regular JsonNumber.Legible) v)
    (hn : nesting v ≤ greatestDepth) :
    read? v.pretty = some (mapNumbers JsonNumber.reread v) :=
  read?_pretty (hv.mono fun _ h => h.mono fun _ hm => hm.readsAs_reread) hn

theorem read?_pretty_of_faithful {v : Json} (hv : Each (Regular JsonNumber.Faithful) v)
    (hn : nesting v ≤ greatestDepth) : read? v.pretty = some v := by
  have he : Each (Readable id) v := hv.mono fun _ h => h.mono fun _ hm => hm.readsAs_self
  rw [read?_pretty he hn, mapNumbers_id]

end Json
end SceneScript
