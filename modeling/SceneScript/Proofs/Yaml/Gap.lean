import SceneScript.Yaml.Printer

namespace SceneScript.Yaml

theorem isGap_eq_false {c : Char} : isGap c = false ↔ isSpace c = false ∧ isBreak c = false :=
  Bool.or_eq_false_iff

theorem isPrintable_of_not_hasSpecial {v : List Char} (h : hasSpecial v = false) :
    ∀ c ∈ v, isPrintable c := by
  intro c hc
  simpa using List.any_eq_false.mp h c hc

theorem eq_space_of_isSpace {c : Char} (hs : isSpace c) (hp : isPrintable c) : c = ' ' := by
  have hcases : c = ' ' ∨ c = '\t' := by simpa [isSpace] using hs
  rcases hcases with rfl | rfl
  · rfl
  · simp [isPrintable] at hp

def StartsWord (s : List Char) : Prop :=
  ∀ c ∈ s.head?, isGap c = false

theorem gapBreaks_word {s : List Char} (h : StartsWord s) (indent : Nat) (broken : Bool)
    (column line : Nat) : gapBreaks indent broken column line s = some ([], ⟨s, column, line⟩) := by
  cases s with
  | nil => rfl
  | cons c s =>
    have hc : isGap c = false := h c rfl
    simp only [isGap, isSpace, Bool.or_eq_false_iff, beq_eq_false_iff_ne] at hc
    simp [gapBreaks, hc]

theorem gapBreaks_spaces {sp s : List Char} (hsp : ∀ c ∈ sp, c = ' ') (h : StartsWord s)
    (indent : Nat) (broken : Bool) (column line : Nat) :
    gapBreaks indent broken column line (sp ++ s) =
      some ([], ⟨s, column + sp.length, line⟩) := by
  induction sp generalizing column with
  | nil => exact gapBreaks_word h indent broken column line
  | cons c sp ih =>
    have hc : c = ' ' := hsp c List.mem_cons_self
    have hi := ih (fun d hd => hsp d (List.mem_cons_of_mem c hd)) (column + 1)
    have hb : isBreak ' ' = false := by decide
    subst hc
    simp only [List.cons_append, gapBreaks, hb, Bool.false_eq_true, if_false, beq_self_eq_true,
      if_true, hi, List.length_cons, Nat.add_right_comm column 1, Nat.add_assoc]

theorem takeWhile_isSpace {sp s : List Char} (hsp : ∀ c ∈ sp, c = ' ') (h : StartsWord s) :
    (sp ++ s).takeWhile isSpace = sp := by
  have hspace : ∀ c ∈ sp, isSpace c = true := by
    intro c hc
    rw [hsp c hc]
    decide
  rw [List.takeWhile_append_of_pos hspace]
  cases s with
  | nil => simp
  | cons c s =>
    have hc := isGap_eq_false.mp (h c rfl)
    simp [hc.1]

theorem gap?_spaces {sp s : List Char} (hsp : ∀ c ∈ sp, c = ' ') (h : StartsWord s)
    (indent column line : Nat) :
    (⟨sp ++ s, column, line⟩ : Cursor).gap? indent =
      some (⟨sp, []⟩, ⟨s, column + sp.length, line⟩) := by
  simp [Cursor.gap?, gapBreaks_spaces hsp h, takeWhile_isSpace hsp h]

theorem gapBreaks_breaks {bs sp s : List Char} (hbs : ∀ c ∈ bs, isBreak c) (hne : bs ≠ [])
    (hsp : ∀ c ∈ sp, c = ' ') (h : StartsWord s) (indent : Nat) (broken : Bool)
    (column line : Nat) :
    gapBreaks indent broken column line (bs ++ (sp ++ s)) =
      some (bs, ⟨s, sp.length, line + bs.length⟩) := by
  induction bs generalizing broken column line with
  | nil => exact absurd rfl hne
  | cons b bs ih =>
    have hb : isBreak b = true := hbs b List.mem_cons_self
    have htail : gapBreaks indent true 0 (line + 1) (bs ++ (sp ++ s)) =
        some (bs, ⟨s, sp.length, line + 1 + bs.length⟩) := by
      cases bs with
      | nil => simpa using gapBreaks_spaces hsp h indent true 0 (line + 1)
      | cons d ds =>
        apply ih (fun c hc => hbs c (List.mem_cons_of_mem b hc))
        exact List.cons_ne_nil d ds
    simp [gapBreaks, hb, htail]
    omega

theorem gap?_breaks {bs sp s : List Char} (hbs : ∀ c ∈ bs, isBreak c) (hne : bs ≠ [])
    (hsp : ∀ c ∈ sp, c = ' ') (h : StartsWord s) (indent column line : Nat) :
    (⟨bs ++ (sp ++ s), column, line⟩ : Cursor).gap? indent =
      some (⟨[], bs⟩, ⟨s, sp.length, line + bs.length⟩) := by
  have hspaces : (bs ++ (sp ++ s)).takeWhile isSpace = [] := by
    obtain ⟨b, bs, rfl⟩ := List.exists_cons_of_ne_nil hne
    have hb : isSpace b = false := by
      have hbreak := hbs b List.mem_cons_self
      simp only [isBreak, Bool.or_eq_true, beq_iff_eq] at hbreak
      rcases hbreak with (rfl | rfl) | rfl <;> rfl
    simp [hb]
  simp [Cursor.gap?, gapBreaks_breaks hbs hne hsp h, hspaces]

theorem gap?_newline {s : List Char} (h : StartsWord s) (indent column line : Nat) :
    (⟨'\n' :: s, column, line⟩ : Cursor).gap? indent = some (⟨[], ['\n']⟩, ⟨s, 0, line + 1⟩) := by
  have hbreak : ∀ c ∈ ['\n'], isBreak c := by simp [isBreak]
  exact @gap?_breaks ['\n'] [] s hbreak (List.cons_ne_nil _ _) (by simp) h indent column line

theorem exists_run (p : Char → Bool) (s : List Char) :
    ∃ front back, s = front ++ back ∧ (∀ c ∈ front, p c) ∧ ∀ c ∈ back.head?, p c = false := by
  refine ⟨s.takeWhile p, s.dropWhile p, List.takeWhile_append_dropWhile.symm,
    List.all_eq_true.mp List.all_takeWhile, fun c hc => ?_⟩
  have hn := List.head?_dropWhile_not p s
  rw [Option.mem_def] at hc
  simpa [hc] using hn

theorem exists_run_cons {p : Char → Bool} {c : Char} (hc : p c) (s : List Char) :
    ∃ front last back, c :: s = front ++ [last] ++ back ∧ (∀ d ∈ front ++ [last], p d) ∧
      ∀ d ∈ back.head?, p d = false := by
  obtain ⟨front, back, hs, hfront, hback⟩ := exists_run p (c :: s)
  rcases List.eq_nil_or_concat front with rfl | ⟨front, last, rfl⟩
  · have hn := hback c (by rw [← List.nil_append back, ← hs]; rfl)
    simp [hc] at hn
  · exact ⟨front, last, back, by simpa using hs, by simpa using hfront, hback⟩

theorem atMark_inside {c : Cursor} (h : c.column ≠ 0) (mark : Char) : c.atMark mark = false := by
  unfold Cursor.atMark
  split
  · simp [h]
  · rfl

theorem atDocumentMark_eq_false {c : Cursor} (h : c.column ≠ 0) : c.atDocumentMark = false := by
  simp [Cursor.atDocumentMark, atMark_inside h]

theorem atMark_eq_false {mark d : Char} {c : Cursor} {s : List Char} (hrest : c.rest = d :: s)
    (hne : d ≠ mark) : c.atMark mark = false := by
  unfold Cursor.atMark
  split
  · rename_i a b e t h
    obtain rfl : d = a := by
      rw [hrest] at h
      exact (List.cons.inj h).1
    simp [hne]
  · rfl

end SceneScript.Yaml
