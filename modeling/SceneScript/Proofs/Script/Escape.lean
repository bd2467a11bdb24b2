import SceneScript.Proofs.Script.Segments

namespace SceneScript.Script

open Text

def slashes (s : List Char) : Nat :=
  (s.reverse.takeWhile (· == '\\')).length

/-- Each `target` in the text stands behind an odd number of backslashes. -/
def Shielded (target : Char) (s : List Char) : Prop :=
  ∀ i < s.length, s[i]? = some target → slashes (s.take i) % 2 = 1

instance (target : Char) (s : List Char) : Decidable (Shielded target s) :=
  inferInstanceAs (Decidable (∀ i < s.length, s[i]? = some target → slashes (s.take i) % 2 = 1))

theorem slashes_concat (s : List Char) (c : Char) :
    slashes (s ++ [c]) = if c = '\\' then slashes s + 1 else 0 := by
  rw [slashes, List.reverse_append, List.reverse_singleton, List.singleton_append,
    List.takeWhile_cons]
  split <;> simp_all [slashes]

theorem shielded_nil (target : Char) : Shielded target [] := by
  intro i hi
  exact absurd hi (Nat.not_lt_zero i)

theorem shielded_concat {target c : Char} {s : List Char} :
    Shielded target (s ++ [c]) ↔ Shielded target s ∧ (c = target → slashes s % 2 = 1) := by
  have htake : ∀ i ≤ s.length, (s ++ [c]).take i = s.take i :=
    fun i hi => List.take_append_of_le_length hi
  constructor
  · intro h
    constructor
    · intro i hi hc
      have hslashes := h i (by simp; omega) (by rwa [List.getElem?_append_left hi])
      rwa [htake i (Nat.le_of_lt hi)] at hslashes
    · rintro rfl
      have hslashes := h s.length (by simp) (by simp)
      rwa [htake _ (Nat.le_refl _), List.take_length] at hslashes
  · rintro ⟨hs, hc⟩ i hi hat
    rw [List.length_append, List.length_singleton] at hi
    rcases Nat.lt_succ_iff_lt_or_eq.mp hi with hi | rfl
    · rw [htake i (Nat.le_of_lt hi)]
      exact hs i hi (by rwa [List.getElem?_append_left hi] at hat)
    · rw [htake _ (Nat.le_refl _), List.take_length]
      exact hc (by simpa using hat)

theorem Shielded.uncut {target : Char} {s : List Char} (h : Shielded target s) :
    (slashes s % 2 = 0 → Uncut target s) ∧
      (slashes s % 2 = 1 → cutUnescaped? target s = none ∧ ∀ c, Uncut target (s ++ [c])) := by
  induction s using List.reverseRecOn with
  | nil => exact ⟨fun _ => uncut_nil target, fun h => absurd h (by decide)⟩
  | append_singleton s c ih =>
    obtain ⟨hs, hc⟩ := shielded_concat.mp h
    obtain ⟨heven, hodd⟩ := ih hs
    rw [slashes_concat]
    rcases Nat.mod_two_eq_zero_or_one (slashes s) with hparity | hparity
    · have hu := heven hparity
      by_cases hb : c = '\\'
      · subst hb
        constructor
        · intro h
          simp only [if_true] at h
          omega
        · intro _
          constructor
          · simpa [cutUnescaped?] using hu ['\\']
          · intro c
            have hpair := hu.append (uncut_escape target c)
            simpa using hpair
      · rw [if_neg hb]
        have ht : c ≠ target := fun he => by simp [hc he] at hparity
        exact ⟨fun _ => hu.append (uncut_singleton hb ht), fun h => absurd h (by decide)⟩
    · constructor
      · intro _
        exact (hodd hparity).2 c
      · intro h
        split at h <;> omega

theorem Shielded.cutUnescaped?_eq_none {target : Char} {s : List Char} (h : Shielded target s) :
    cutUnescaped? target s = none := by
  obtain ⟨heven, hodd⟩ := h.uncut
  rcases Nat.mod_two_eq_zero_or_one (slashes s) with hparity | hparity
  · exact (heven hparity).cutUnescaped?_eq_none
  · exact (hodd hparity).1

theorem Shielded.cutUnescaped?_eq_some {target : Char} {s : List Char} (h : Shielded target s)
    (heven : slashes s % 2 = 0) (ht : target ≠ '\\') (r : List Char) :
    cutUnescaped? target (s ++ target :: r) = some (s, r) := by
  rw [h.uncut.1 heven, cutUnescaped?_cons ht, if_pos rfl]
  simp

theorem exists_shielded (target : Char) (s : List Char) :
    Shielded target s ∨
      ∃ front r, s = front ++ target :: r ∧ Shielded target front ∧ slashes front % 2 = 0 := by
  induction s using List.reverseRecOn with
  | nil => exact .inl (shielded_nil target)
  | append_singleton s c ih =>
    obtain hs | ⟨front, r, rfl, hfront, heven⟩ := ih
    · by_cases hc : c = target ∧ slashes s % 2 = 0
      · exact .inr ⟨s, [], by rw [hc.1], hs, hc.2⟩
      · refine .inl (shielded_concat.mpr ⟨hs, fun he => ?_⟩)
        have hodd : ¬slashes s % 2 = 0 := fun heven => hc ⟨he, heven⟩
        omega
    · exact .inr ⟨front, r ++ [c], by simp, hfront, heven⟩

end SceneScript.Script
