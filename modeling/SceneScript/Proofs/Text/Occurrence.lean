import SceneScript.Text.Lines

namespace SceneScript.Text

theorem before?_isSome_iff {w s : List Char} : (before? w s).isSome ↔ w <:+: s := by
  induction s with
  | nil => cases w <;> simp [before?]
  | cons c s ih =>
    by_cases h : w.isPrefixOf (c :: s)
    · simp only [before?, h, if_true, Option.isSome_some, true_iff]
      exact (List.isPrefixOf_iff_prefix.mp h).isInfix
    · have hn : ¬ w <+: c :: s := fun hw => h (List.isPrefixOf_iff_prefix.mpr hw)
      rw [before?, if_neg h, Option.isSome_map, ih, List.infix_cons_iff]
      simp [hn]

theorem append_prefix_of_before? {w s front : List Char} (h : before? w s = some front) :
    front ++ w <+: s := by
  induction s generalizing front with
  | nil =>
    cases w with
    | nil => simp_all [before?]
    | cons c w => simp [before?] at h
  | cons c s ih =>
    by_cases hw : w.isPrefixOf (c :: s)
    · simp only [before?, hw, if_true, Option.some.injEq] at h
      subst h
      exact List.isPrefixOf_iff_prefix.mp hw
    · rw [before?, if_neg hw] at h
      obtain ⟨rest, hr, rfl⟩ := Option.map_eq_some_iff.mp h
      simpa using ih hr

theorem prefix_append_cons_iff {w l s : List Char} {c : Char} (hc : c ∉ w) :
    w <+: l ++ c :: s ↔ w <+: l := by
  constructor
  · intro h
    obtain h | ⟨t, rfl⟩ := List.prefix_or_prefix_of_prefix h (List.prefix_append l (c :: s))
    · exact h
    · cases t with
      | nil => simp
      | cons d t =>
        have hd := (List.prefix_append_right_inj l).mp h
        simp only [List.cons_prefix_cons] at hd
        simp [hd.1] at hc
  · exact fun h => h.trans (List.prefix_append _ _)

theorem before?_append_cons {w l s : List Char} {c : Char} (hw : w ≠ []) (hc : c ∉ w) :
    before? w (l ++ c :: s) =
      if (before? w l).isSome then before? w l
      else (before? w s).map fun front => l ++ c :: front := by
  induction l with
  | nil =>
    have hp : w.isPrefixOf (c :: s) = false := by
      rw [← Bool.not_eq_true, List.isPrefixOf_iff_prefix, ← List.nil_append (c :: s),
        prefix_append_cons_iff hc, List.prefix_nil]
      exact hw
    simp [before?, hp, hw]
  | cons d l ih =>
    have hp : w.isPrefixOf (d :: (l ++ c :: s)) = w.isPrefixOf (d :: l) := by
      rw [Bool.eq_iff_iff, List.isPrefixOf_iff_prefix, List.isPrefixOf_iff_prefix]
      exact prefix_append_cons_iff (l := d :: l) hc
    simp only [List.cons_append, before?, hp, ih]
    by_cases hl : w.isPrefixOf (d :: l) = true
    · simp [hl]
    · obtain hb | ⟨front, hb⟩ := Option.eq_none_or_eq_some (before? w l)
      · simp [hl, hb, Function.comp_def]
      · simp [hl, hb]

def joinLines (ls : List (List Char)) : List Char :=
  ['\n'].intercalate ls

theorem joinLines_cons {l : List Char} {ls : List (List Char)} (h : ls ≠ []) :
    joinLines (l :: ls) = l ++ '\n' :: joinLines ls := by
  simp [joinLines, List.intercalate_cons_of_ne_nil h]

theorem lines_joinLines {ls : List (List Char)} (h : ∀ l ∈ ls, '\n' ∉ l) (hn : ls ≠ []) :
    lines (joinLines ls) = ls :=
  List.splitOn_intercalate _ h hn

theorem count_joinLines {ls : List (List Char)} (h : ∀ l ∈ ls, '\n' ∉ l) (hn : ls ≠ []) :
    (joinLines ls).count '\n' + 1 = ls.length := by
  induction ls with
  | nil => exact absurd rfl hn
  | cons l ls ih =>
    have hl : l.count '\n' = 0 := List.count_eq_zero.mpr (h l (by simp))
    cases ls with
    | nil => simpa [joinLines] using hl
    | cons k ls =>
      have hi := ih (fun m hm => h m (by simp [hm])) (by simp)
      rw [joinLines_cons (by simp), List.count_append, List.count_cons_self, hl, List.length_cons,
        ← hi]
      omega

theorem count_newline_before? {w l front : List Char} (hl : '\n' ∉ l)
    (h : before? w l = some front) : front.count '\n' = 0 := by
  rw [List.count_eq_zero]
  exact fun hm => hl ((append_prefix_of_before? h).subset (List.mem_append_left _ hm))

theorem count_before?_joinLines {w : List Char} {ls : List (List Char)} (hw : w ≠ [])
    (hn : '\n' ∉ w) (hl : ∀ l ∈ ls, '\n' ∉ l) :
    (before? w (joinLines ls)).map (List.count '\n') =
      ls.findIdx? fun l => (before? w l).isSome := by
  induction ls with
  | nil => simp [joinLines, before?, hw]
  | cons l ls ih =>
    have hl₀ := hl l (by simp)
    have hcount : ∀ front, before? w l = some front → front.count '\n' = 0 :=
      fun front h => count_newline_before? hl₀ h
    cases ls with
    | nil =>
      simp only [joinLines, List.intercalate_singleton, List.findIdx?_singleton]
      cases hb : before? w l with
      | none => simp
      | some front => simp [hcount front hb]
    | cons k ls =>
      rw [joinLines_cons (by simp), before?_append_cons hw hn, List.findIdx?_cons]
      cases hb : before? w l with
      | some front => simp [hcount front hb]
      | none =>
        rw [← ih fun l hm => hl l (by simp [hm])]
        simp [Option.map_map, Function.comp_def, List.count_append,
          List.count_eq_zero.mpr hl₀]

theorem lineIndexAt_append (front s : List Char) :
    lineIndexAt (front ++ s) (byteLength front) = front.count '\n' := by
  induction front with
  | nil => cases s <;> simp [lineIndexAt, byteLength]
  | cons c front ih =>
    have hc : c.utf8Size ≠ 0 := by have := c.utf8Size_pos; omega
    simp only [List.cons_append, lineIndexAt, byteLength, Nat.add_sub_cancel_left, ih,
      List.count_cons]
    rw [if_neg (by omega), Nat.add_comm]
    simp

theorem lineIndexAt_before? {w s front : List Char} (h : before? w s = some front) :
    lineIndexAt s (byteLength front) = front.count '\n' := by
  obtain ⟨rest, rfl⟩ := append_prefix_of_before? h
  rw [List.append_assoc, lineIndexAt_append]

end SceneScript.Text
