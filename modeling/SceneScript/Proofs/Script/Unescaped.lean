import Mathlib.Order.Bounds.Basic
import SceneScript.Proofs.Script.Escape
import SceneScript.Proofs.Text.Offset

namespace SceneScript.Script

open Text

def unescapedOffset? (target : Char) (s : List Char) : Option Nat :=
  (cutUnescaped? target s).map fun p => byteLength p.1

def unescapedOffsets (target : Char) (s : List Char) : Set Nat :=
  {i | ∃ k, s[k]? = some target ∧ slashes (s.take k) % 2 = 0 ∧ byteLength (s.take k) = i}

section

variable {target : Char} {s : List Char}

theorem cutUnescaped?_cases (ht : target ≠ '\\') (s : List Char) :
    (Shielded target s ∧ cutUnescaped? target s = none) ∨
      ∃ front back, cutUnescaped? target s = some (front, back) ∧ s = front ++ target :: back ∧
        Shielded target front ∧ slashes front % 2 = 0 := by
  obtain hs | ⟨front, back, hs, hfront, heven⟩ := exists_shielded target s
  · exact .inl ⟨hs, hs.cutUnescaped?_eq_none⟩
  · refine .inr ⟨front, back, ?_, hs, hfront, heven⟩
    rw [hs, hfront.cutUnescaped?_eq_some heven ht]

theorem Shielded.not_mem_unescapedOffsets (h : Shielded target s) (i : Nat) :
    i ∉ unescapedOffsets target s := by
  rintro ⟨k, hat, heven, -⟩
  have hodd := h k (List.getElem?_eq_some_iff.mp hat).1 hat
  omega

theorem Shielded.isLeast {front back : List Char} (h : Shielded target front)
    (heven : slashes front % 2 = 0) :
    IsLeast (unescapedOffsets target (front ++ target :: back)) (byteLength front) := by
  have htake : (front ++ target :: back).take front.length = front := List.take_left
  refine ⟨⟨front.length, by simp, by rwa [htake], by rw [htake]⟩, ?_⟩
  rintro i ⟨k, hat, hslashes, rfl⟩
  rcases Nat.lt_or_ge k front.length with hlt | hge
  · -- a `target` in front of the first one is escaped
    rw [List.getElem?_append_left hlt] at hat
    rw [List.take_append_of_le_length (Nat.le_of_lt hlt)] at hslashes
    have hodd := h k hlt hat
    omega
  · have hmono := byteLength_take_mono (front ++ target :: back) hge
    rwa [htake] at hmono

theorem unescapedOffset?_eq_none_iff (ht : target ≠ '\\') :
    unescapedOffset? target s = none ↔ Shielded target s := by
  rw [unescapedOffset?, Option.map_eq_none_iff]
  obtain ⟨hs, hcut⟩ | ⟨front, back, hcut, rfl, hfront, heven⟩ := cutUnescaped?_cases ht s
  · exact iff_of_true hcut hs
  · refine iff_of_false (by simp [hcut]) fun hs => ?_
    exact hs.not_mem_unescapedOffsets _ (hfront.isLeast heven).1

theorem unescapedOffset?_eq_some_iff (ht : target ≠ '\\') {i : Nat} :
    unescapedOffset? target s = some i ↔ IsLeast (unescapedOffsets target s) i := by
  obtain ⟨hs, hcut⟩ | ⟨front, back, hcut, rfl, hfront, heven⟩ := cutUnescaped?_cases ht s
  · refine iff_of_false (by simp [unescapedOffset?, hcut]) fun h => ?_
    exact hs.not_mem_unescapedOffsets i h.1
  · have hleast := @Shielded.isLeast _ _ back hfront heven
    rw [unescapedOffset?, hcut, Option.map_some, Option.some.injEq]
    constructor
    · rintro rfl
      exact hleast
    · exact fun h => hleast.unique h

/-- The offset is the least one at which a `target` stands behind an even number of backslashes, and
there is none if each stands behind an odd number of them. It is a boundary of characters, and with
the `target` in between what is before and behind it gives back the text. -/
theorem unescapedOffset?_least (ht : target ≠ '\\') (s : List Char) :
    (∀ i, unescapedOffset? target s = some i ↔ IsLeast (unescapedOffsets target s) i) ∧
      (unescapedOffset? target s = none ↔ Shielded target s) ∧
      ∀ i, unescapedOffset? target s = some i →
        (String.Pos.Raw.mk i).IsValid (String.ofList s) ∧
        ∃ front back, cutUnescaped? target s = some (front, back) ∧
          (bytes s).take i = bytes front ∧ (bytes s).drop (i + target.utf8Size) = bytes back ∧
          s = front ++ target :: back := by
  refine ⟨fun i => unescapedOffset?_eq_some_iff ht, unescapedOffset?_eq_none_iff ht, ?_⟩
  intro i hi
  obtain ⟨-, hcut⟩ | ⟨front, back, hcut, rfl, -, -⟩ := cutUnescaped?_cases ht s
  · simp [unescapedOffset?, hcut] at hi
  · obtain rfl : byteLength front = i := by simpa [unescapedOffset?, hcut] using hi
    obtain ⟨hfront, hback⟩ := bytes_cut front target back
    exact ⟨isValid_byteLength _ _, front, back, hcut, hfront, hback, rfl⟩

end

theorem unescapedOffset?_least_slashes :
    ';' ≠ '\\' ∧
      IsLeast (unescapedOffsets ';' "é\\\\\\;\\\\;é;".toList) 8 ∧
      cutUnescaped? ';' "é\\\\\\;\\\\;é;".toList =
        some ("é\\\\\\;\\\\".toList, "é;".toList) ∧
      (bytes "é\\\\\\;\\\\;é;".toList).drop 9 = bytes "é;".toList ∧
      Shielded ';' "é\\;\\\\\\;".toList := by
  have ht : ';' ≠ '\\' := by decide
  obtain ⟨hleast, -, hcut⟩ := unescapedOffset?_least ht "é\\\\\\;\\\\;é;".toList
  obtain ⟨-, hnone, -⟩ := unescapedOffset?_least ht "é\\;\\\\\\;".toList
  have hoffset : unescapedOffset? ';' "é\\\\\\;\\\\;é;".toList = some 8 := by decide
  obtain ⟨-, front, back, hpieces, -, hback, -⟩ := hcut 8 hoffset
  have hwritten : cutUnescaped? ';' "é\\\\\\;\\\\;é;".toList =
      some ("é\\\\\\;\\\\".toList, "é;".toList) := by decide
  obtain ⟨-, rfl⟩ := Prod.mk.inj (Option.some.inj (hpieces.symm.trans hwritten))
  exact ⟨ht, (hleast 8).mp hoffset, hwritten, hback, hnone.mp (by decide)⟩

end SceneScript.Script
