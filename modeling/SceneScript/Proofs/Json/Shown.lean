import Mathlib.Data.List.Forall2
import SceneScript.Proofs.Json.Layout
import SceneScript.Proofs.Json.Part

namespace SceneScript.Json

open Text

def Word (w : List Char) : Prop :=
  w ≠ [] ∧ ∀ c ∈ w, c.isAlpha

theorem escape_of_isAlpha {c : Char} (h : c.isAlpha) : escape c = [c] := by
  have hc : ¬ c.toNat < 32 := by
    intro hc
    have hn : ∀ n < 32, (Char.ofNat n).isAlpha = false := by decide
    have h32 := hn c.toNat hc
    rw [Char.ofNat_toNat] at h32
    simp [h32] at h
  unfold escape
  split
  · exact absurd h (by decide)
  · exact absurd h (by decide)
  · exact absurd h (by decide)
  · exact absurd h (by decide)
  · exact absurd h (by decide)
  · exact absurd h (by decide)
  · exact absurd h (by decide)
  · rw [if_neg hc]

theorem Word.plain {w : List Char} (h : Word w) : Plain w :=
  fun c hc => escape_of_isAlpha (h.2 c hc)

theorem Word.not_prefix {w : List Char} (h : Word w) {c : Char} (hc : c.isAlpha = false)
    (s : List Char) : ¬ w ++ ['"'] <+: c :: s := by
  obtain ⟨hn, ha⟩ := h
  cases w with
  | nil => exact absurd rfl hn
  | cons a w =>
    have hac : a ≠ c := by
      rintro rfl
      simp [ha a (by simp)] at hc
    simp [hac]

def lead : Option String → List Char
  | none => []
  | some key => label key

mutual

def shownAt (key : Option String) : Json → List (List String)
  | array (item :: items) => key.toList :: shownItems (item :: items) ++ [[]]
  | object (member :: members) => key.toList :: shownMembers (member :: members) ++ [[]]
  | string s => [key.toList ++ [s]]
  | _ => [key.toList]

def shownItems : List Json → List (List String)
  | [] => []
  | item :: items => shownAt none item ++ shownItems items

def shownMembers : List (String × Json) → List (List String)
  | [] => []
  | (key, value) :: members => shownAt (some key) value ++ shownMembers members

end

theorem shownAt_string (key s : String) : shownAt (some key) (.string s) = [[key, s]] := rfl

theorem shownAt_number (key : String) (n : JsonNumber) :
    shownAt (some key) (.number n) = [[key]] := rfl

theorem shownAt_eq_cons (key : String) (v : Json) :
    ∃ t ls, shownAt (some key) v = (key :: t) :: ls := by
  cases v with
  | array items => cases items <;> exact ⟨_, _, by simp only [shownAt]; rfl⟩
  | object members => cases members <;> exact ⟨_, _, by simp only [shownAt]; rfl⟩
  | _ => exact ⟨_, _, by simp only [shownAt]; rfl⟩

theorem shownItems_append (front back : List Json) :
    shownItems (front ++ back) = shownItems front ++ shownItems back := by
  induction front with
  | nil => rfl
  | cons item front ih => simp [shownItems, ih]

theorem shownAt_array_append (front : List Json) (item : Json) (back : List Json) :
    shownAt none (array (front ++ item :: back)) =
      ([] :: shownItems front) ++ shownAt none item ++ (shownItems back ++ [[]]) := by
  have h := shownItems_append front (item :: back)
  cases front <;> simp_all [shownAt, shownItems]

def echoes (w : List Char) (strings : List String) : Bool :=
  strings.any fun s => decide (Echoes w s.toList)

theorem echoes_iff {w : List Char} {strings : List String} :
    echoes w strings ↔ ∃ s ∈ strings, Echoes w s.toList := by
  simp [echoes]

theorem map_echoes_shownAt {w : List Char} {key : String} (h : ¬ Echoes w key.toList) (v : Json) :
    (shownAt (some key) v).map (echoes w) = (shownAt none v).map (echoes w) := by
  cases v with
  | array items => cases items <;> simp [shownAt, echoes, h]
  | object members => cases members <;> simp [shownAt, echoes, h]
  | _ => simp [shownAt, echoes, h]

def holds (w : List Char) (l : Line) : Bool :=
  (before? (quote w) l.text).isSome

theorem quote_not_infix_of_not_mem {w t : List Char} (ht : '"' ∉ t) : ¬ quote w <:+: t := by
  rw [quote_eq]
  exact fun h => ht (h.subset (by simp))

/-- A line of a pretty form with the strings that it prints: its key, if it has one, and behind it a
string, or a text without quotes. -/
inductive Prints : List Char → List String → Prop
  | bare (depth : Nat) (key : Option String) {rest : List Char} : '"' ∉ rest →
      Prints (indent depth ++ lead key ++ rest) key.toList
  | string (depth : Nat) (key : Option String) (s : String) {after : List Char} :
      after = [] ∨ after = [','] →
      Prints (indent depth ++ lead key ++ quote s.toList ++ after) (key.toList ++ [s])

section

variable {w : List Char} (hw : Word w)

include hw

theorem quote_infix_lead_iff {key : Option String} {t : List Char} :
    quote w <:+: lead key ++ t ↔ echoes w key.toList ∨ quote w <:+: t := by
  cases key with
  | none => simp [lead, echoes]
  | some key =>
    have hcolon : quote w <:+: ':' :: ' ' :: t ↔ quote w <:+: t :=
      quote_infix_append_iff (u := [':', ' ']) (by decide)
    have hlead : lead (some key) ++ t = quote key.toList ++ ':' :: ' ' :: t := by
      simp [lead, label]
    rw [hlead, quote_infix_quote_append_iff hw.plain (hw.not_prefix (by decide) _), hcolon]
    simp [echoes]

theorem Prints.quote_infix_iff {line : List Char} {strings : List String}
    (h : Prints line strings) : quote w <:+: line ↔ echoes w strings := by
  have hindent (depth : Nat) : '"' ∉ indent depth := by simp [indent]
  cases h with
  | bare depth key hrest =>
    rw [List.append_assoc, quote_infix_append_iff (hindent depth), quote_infix_lead_iff hw]
    simp [quote_not_infix_of_not_mem hrest]
  | @string depth key s after hafter =>
    have hp : ¬ w ++ ['"'] <+: after := by
      rcases hafter with rfl | rfl
      · simp
      · exact hw.not_prefix (by decide) []
    have hn : ¬ quote w <:+: after :=
      quote_not_infix_of_not_mem (by rcases hafter with rfl | rfl <;> decide)
    rw [List.append_assoc, List.append_assoc, quote_infix_append_iff (hindent depth),
      quote_infix_lead_iff hw, quote_infix_quote_append_iff hw.plain hp]
    simp [echoes, hn]

theorem map_holds_of_prints {ls : List Line} {strings : List (List String)}
    (h : List.Forall₂ Prints (ls.map Line.text) strings) :
    ls.map (holds w) = strings.map (echoes w) := by
  rw [List.forall₂_map_left_iff] at h
  induction h with
  | nil => rfl
  | @cons l strings _ _ hl _ ih =>
    have hholds : holds w l = echoes w strings := by
      rw [Bool.eq_iff_iff, ← hl.quote_infix_iff hw, holds, before?_isSome_iff]
    rw [List.map_cons, List.map_cons, hholds, ih]

end

theorem prints_atom {depth : Nat} {key : Option String} {t after : List Char} (ht : '"' ∉ t)
    (ha : after = [] ∨ after = [',']) :
    List.Forall₂ Prints ([Line.mk depth (lead key ++ t ++ after)].map Line.text) [key.toList] := by
  have hrest : '"' ∉ t ++ after := by rcases ha with rfl | rfl <;> simp [ht]
  have h := Prints.bare depth key hrest
  rw [List.append_assoc, ← List.append_assoc (lead key)] at h
  exact .cons h .nil

mutual

theorem prints_linesAt (depth : Nat) (key : Option String) {after : List Char}
    (ha : after = [] ∨ after = [',']) : ∀ v : Json,
    List.Forall₂ Prints ((linesAt depth (lead key) after v).map Line.text) (shownAt key v)
  | array (item :: items) => by
      have hopen := @prints_atom depth key ['['] [] (by decide) (.inl rfl)
      have hitems := prints_itemLines (depth + 1) (item :: items)
      have hclose := @prints_atom depth none [']'] after (by decide) ha
      rw [List.append_nil] at hopen
      simp only [linesAt, shownAt, List.map_append]
      exact List.rel_append (List.rel_append hopen hitems) hclose
  | object (member :: members) => by
      have hopen := @prints_atom depth key ['\x7b'] [] (by decide) (.inl rfl)
      have hmembers := prints_memberLines (depth + 1) (member :: members)
      have hclose := @prints_atom depth none ['\x7d'] after (by decide) ha
      rw [List.append_nil] at hopen
      simp only [linesAt, shownAt, List.map_append]
      exact List.rel_append (List.rel_append hopen hmembers) hclose
  | string s => by
      have h := Prints.string depth key s ha
      rw [List.append_assoc, List.append_assoc, ← List.append_assoc (lead key)] at h
      exact .cons h .nil
  | number n => prints_atom (fun hm => absurd (n.isNumeral_of_mem_text hm) (by decide)) ha
  | bool b => prints_atom (by cases b <;> decide) ha
  | null | array [] | object [] => prints_atom (by decide) ha

theorem prints_itemLines (depth : Nat) : ∀ items : List Json,
    List.Forall₂ Prints ((itemLines depth items).map Line.text) (shownItems items)
  | [] => .nil
  | item :: items => by
      rw [itemLines, shownItems, List.map_append]
      exact List.rel_append (prints_linesAt depth none (separator_cases items) item)
        (prints_itemLines depth items)

theorem prints_memberLines (depth : Nat) : ∀ members : List (String × Json),
    List.Forall₂ Prints ((memberLines depth members).map Line.text) (shownMembers members)
  | [] => .nil
  | (key, value) :: members => by
      rw [memberLines, shownMembers, List.map_append]
      exact List.rel_append (prints_linesAt depth (some key) (separator_cases members) value)
        (prints_memberLines depth members)

end

theorem holds_linesAt {w : List Char} (hw : Word w) (depth : Nat) (key : Option String)
    {after : List Char} (ha : after = [] ∨ after = [',']) (v : Json) :
    (linesAt depth (lead key) after v).map (holds w) = (shownAt key v).map (echoes w) :=
  map_holds_of_prints hw (prints_linesAt depth key ha v)

theorem findIdx?_holds_linesAt {w : List Char} (hw : Word w) (depth : Nat) (key : Option String)
    {after : List Char} (ha : after = [] ∨ after = [',']) (v : Json) :
    (linesAt depth (lead key) after v).findIdx? (holds w) = (shownAt key v).findIdx? (echoes w) := by
  have h := congrArg (List.findIdx? id) (holds_linesAt hw depth key ha v)
  rwa [List.findIdx?_map, List.findIdx?_map] at h

mutual

theorem shownAt_mapNumbers (f : JsonNumber → JsonNumber) (key : Option String) : ∀ v : Json,
    shownAt key (mapNumbers f v) = shownAt key v
  | array (item :: items) => by
      have h := shownItems_mapItems f (item :: items)
      simp only [mapItems] at h
      simp [mapNumbers, mapItems, shownAt, h]
  | object ((k, value) :: members) => by
      have h := shownMembers_mapMembers f ((k, value) :: members)
      simp only [mapMembers] at h
      simp [mapNumbers, mapMembers, shownAt, h]
  | array [] | object [] | null | bool _ | number _ | string _ => rfl

theorem shownItems_mapItems (f : JsonNumber → JsonNumber) : ∀ items : List Json,
    shownItems (mapItems f items) = shownItems items
  | [] => rfl
  | item :: items => by
      simp [mapItems, shownItems, shownAt_mapNumbers f none item, shownItems_mapItems f items]

theorem shownMembers_mapMembers (f : JsonNumber → JsonNumber) : ∀ members : List (String × Json),
    shownMembers (mapMembers f members) = shownMembers members
  | [] => rfl
  | (key, value) :: members => by
      simp [mapMembers, shownMembers, shownAt_mapNumbers f (some key) value,
        shownMembers_mapMembers f members]

end

end SceneScript.Json
