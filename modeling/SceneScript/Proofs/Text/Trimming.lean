import SceneScript.Text.Blank

namespace SceneScript.Text

def StartsSolid (s : List Char) : Prop :=
  ∀ c ∈ s.head?, isBlank c = false

def EndsSolid (s : List Char) : Prop :=
  ∀ c ∈ s.getLast?, isBlank c = false

structure Trimmed (s : List Char) : Prop where
  starts : StartsSolid s
  ends : EndsSolid s

theorem dropEndWhile_concat (p : Char → Bool) (s : List Char) (c : Char) :
    dropEndWhile p (s ++ [c]) = if p c then dropEndWhile p s else s ++ [c] := by
  simp only [dropEndWhile, List.reverse_append, List.reverse_singleton, List.singleton_append,
    List.dropWhile_cons]
  split
  · rfl
  · simp

theorem dropEndWhile_eq_self {p : Char → Bool} {s : List Char}
    (h : ∀ c ∈ s.getLast?, p c = false) : dropEndWhile p s = s := by
  rcases List.eq_nil_or_concat s with rfl | ⟨s, c, rfl⟩
  · rfl
  · have hc : p c = false := h c (by simp)
    simp [dropEndWhile_concat, hc]

theorem dropEndWhile_append_cons {p : Char → Bool} {c : Char} (hc : p c = false)
    (s t : List Char) : dropEndWhile p (s ++ c :: t) = s ++ c :: dropEndWhile p t := by
  have hstop : (c :: s.reverse).dropWhile p = c :: s.reverse :=
    List.dropWhile_cons_of_neg (by simp [hc])
  simp only [dropEndWhile, List.reverse_append, List.reverse_cons, List.append_assoc,
    List.singleton_append, List.dropWhile_append, hstop]
  split
  · rename_i hempty
    simp [List.isEmpty_iff.mp hempty]
  · simp

theorem Trimmed.trim_eq {s : List Char} (h : Trimmed s) : trim s = s := by
  have hd : s.dropWhile isBlank = s := by
    cases s with
    | nil => rfl
    | cons c s =>
      have hc : isBlank c = false := h.starts c rfl
      simp [hc]
  rw [trim, hd]
  exact dropEndWhile_eq_self h.ends

theorem getLast?_dropEndWhile (p : Char → Bool) (s : List Char) :
    ∀ c ∈ (dropEndWhile p s).getLast?, p c = false := by
  intro c hc
  rw [dropEndWhile, List.getLast?_reverse] at hc
  have hn := List.head?_dropWhile_not p s.reverse
  rw [Option.mem_def] at hc
  simpa [hc] using hn

theorem endsSolid_dropEndWhile (s : List Char) : EndsSolid (dropEndWhile isBlank s) :=
  getLast?_dropEndWhile isBlank s

theorem exists_dropEndWhile (p : Char → Bool) (s : List Char) :
    ∃ dropped, s = dropEndWhile p s ++ dropped ∧ ∀ c ∈ dropped, p c := by
  refine ⟨(s.reverse.takeWhile p).reverse, ?_, ?_⟩
  · rw [dropEndWhile, ← List.reverse_append, List.takeWhile_append_dropWhile, List.reverse_reverse]
  · intro c hc
    exact List.all_eq_true.mp List.all_takeWhile c (List.mem_reverse.mp hc)

theorem prefix_dropEndWhile (p : Char → Bool) (s : List Char) : dropEndWhile p s <+: s := by
  have h := List.dropWhile_suffix (l := s.reverse) p
  exact List.reverse_suffix.mp (by simpa [dropEndWhile] using h)

theorem startsSolid_front {s t : List Char} (h : s <+: t) (ht : StartsSolid t) :
    StartsSolid s := by
  intro c hc
  obtain ⟨r, rfl⟩ := h
  apply ht
  cases s with
  | nil => simp at hc
  | cons d s => exact hc

theorem trimmed_trim (s : List Char) : Trimmed (trim s) := by
  have hs : StartsSolid (s.dropWhile isBlank) := by
    intro c hc
    have hn := List.head?_dropWhile_not isBlank s
    rw [Option.mem_def] at hc
    simpa [hc] using hn
  exact ⟨startsSolid_front (prefix_dropEndWhile _ _) hs, endsSolid_dropEndWhile _⟩

theorem trimmed_iff {s : List Char} : Trimmed s ↔ trim s = s := by
  constructor
  · exact Trimmed.trim_eq
  · intro h
    rw [← h]
    exact trimmed_trim s

theorem endsSolid_append {s t : List Char} (hs : EndsSolid s) (ht : EndsSolid t) :
    EndsSolid (s ++ t) := by
  intro c hc
  rw [List.getLast?_append, Option.mem_def, Option.or_eq_some_iff] at hc
  rcases hc with hc | ⟨-, hc⟩
  · exact ht c hc
  · exact hs c hc

theorem startsSolid_append {s t : List Char} (hn : s ≠ []) (hs : StartsSolid s) :
    StartsSolid (s ++ t) := by
  cases s with
  | nil => exact absurd rfl hn
  | cons d s => exact hs

theorem endsSolid_suffix {s t : List Char} (h : s <:+ t) (ht : EndsSolid t) : EndsSolid s := by
  intro c hc
  obtain ⟨front, rfl⟩ := h
  rw [Option.mem_def] at hc
  exact ht c (by simp [List.getLast?_append, hc])

theorem trim_of_endsSolid {s : List Char} (h : EndsSolid s) : trim s = s.dropWhile isBlank :=
  dropEndWhile_eq_self (endsSolid_suffix (List.dropWhile_suffix _) h)

theorem trim_sublist (s : List Char) : (trim s).Sublist s :=
  (prefix_dropEndWhile _ _).sublist.trans (List.dropWhile_sublist _)

theorem mem_trim {c : Char} {s : List Char} (h : c ∈ s) (hc : isBlank c = false) : c ∈ trim s := by
  obtain ⟨dropped, hs, hdropped⟩ := exists_dropEndWhile isBlank (s.dropWhile isBlank)
  rw [← List.takeWhile_append_dropWhile (p := isBlank) (l := s), hs, List.mem_append,
    List.mem_append] at h
  rcases h with h | h | h
  · simp [List.all_eq_true.mp List.all_takeWhile c h] at hc
  · exact h
  · simp [hdropped c h] at hc

theorem endsSolid_of_forall {s : List Char} (h : ∀ c ∈ s, isBlank c = false) : EndsSolid s :=
  fun c hc => h c (List.mem_of_getLast? hc)

theorem endsSolid_singleton {c : Char} (h : isBlank c = false) : EndsSolid [c] := by
  intro d hd
  rw [Option.mem_def, List.getLast?_singleton, Option.some.injEq] at hd
  rwa [← hd]

theorem startsSolid_of_forall {s : List Char} (h : ∀ c ∈ s, isBlank c = false) : StartsSolid s :=
  fun c hc => h c (List.mem_of_head? hc)

theorem trim_blanks_append {blanks : List Char} (h : ∀ c ∈ blanks, isBlank c) (s : List Char) :
    trim (blanks ++ s) = trim s := by
  rw [trim, List.dropWhile_append_of_pos h, trim]

theorem trim_append_blanks {blanks : List Char} (h : ∀ c ∈ blanks, isBlank c) (s : List Char) :
    trim (s ++ blanks) = trim s := by
  have hend : ∀ t, dropEndWhile isBlank (t ++ blanks) = dropEndWhile isBlank t := by
    intro t
    rw [dropEndWhile, List.reverse_append, List.dropWhile_append_of_pos, dropEndWhile]
    intro c hc
    exact h c (List.mem_reverse.mp hc)
  have hblanks : (blanks ++ []).dropWhile isBlank = [] := List.dropWhile_append_of_pos h
  rw [List.append_nil] at hblanks
  rw [trim, trim, List.dropWhile_append]
  split
  · rename_i hs
    rw [hblanks, List.isEmpty_iff.mp hs]
  · exact hend _

end SceneScript.Text
