import SceneScript.Json.Printer
import SceneScript.Json.Reader

namespace SceneScript.Json

theorem hexDigit_plain : ∀ n < 16, hexDigit n ≠ '"' ∧ hexDigit n ≠ '\n' ∧ hexDigit n ≠ '\x7d' ∧
    Text.hexValue? (hexDigit n) = some n := by
  decide

theorem escape_cases (c : Char) :
    (escape c = [c] ∧ c ≠ '"' ∧ c ≠ '\\' ∧ c ≠ '\n' ∧ 32 ≤ c.toNat) ∨
    (∃ d, escape c = ['\\', d] ∧ unescape? d = some c ∧ (d = '"' ↔ c = '"') ∧
      d ≠ 'u' ∧ d ≠ '\n' ∧ d ≠ '\x7d' ∧ c ≠ '\x7d') ∨
    (escape c = ['\\', 'u', '0', '0', hexDigit (c.toNat / 16), hexDigit (c.toNat % 16)] ∧
      c.toNat < 32 ∧ c ≠ '"') := by
  unfold escape
  split
  · exact .inr (.inl ⟨'"', rfl, by decide⟩)
  · exact .inr (.inl ⟨'\\', rfl, by decide⟩)
  · exact .inr (.inl ⟨'n', rfl, by decide⟩)
  · exact .inr (.inl ⟨'r', rfl, by decide⟩)
  · exact .inr (.inl ⟨'t', rfl, by decide⟩)
  · exact .inr (.inl ⟨'b', rfl, by decide⟩)
  · exact .inr (.inl ⟨'f', rfl, by decide⟩)
  · rename_i hq hb hn _ _ _ _
    split
    · rename_i hc
      exact .inr (.inr ⟨rfl, hc, hq⟩)
    · exact .inl ⟨rfl, hq, hb, hn, by omega⟩

def escaped (s : List Char) : List Char :=
  s.flatMap escape

@[simp]
theorem escaped_cons (c : Char) (s : List Char) : escaped (c :: s) = escape c ++ escaped s :=
  List.flatMap_cons

theorem quote_eq (s : List Char) : quote s = '"' :: (escaped s ++ ['"']) := rfl

theorem newline_not_mem_escaped (s : List Char) : '\n' ∉ escaped s := by
  simp only [escaped, List.mem_flatMap, not_exists, not_and]
  intro c _
  obtain ⟨he, -, -, hn, -⟩ | ⟨d, he, -, -, -, hn, -⟩ | ⟨he, hc, -⟩ := escape_cases c
  · simpa [he] using hn.symm
  · simpa [he] using hn.symm
  · have h₁ := hexDigit_plain (c.toNat / 16) (by omega)
    have h₂ := hexDigit_plain (c.toNat % 16) (by omega)
    simp [he, h₁.2.1.symm, h₂.2.1.symm]

theorem brace_mem_escaped {s : List Char} : '\x7d' ∈ escaped s ↔ '\x7d' ∈ s := by
  induction s with
  | nil => rfl
  | cons c s ih =>
    rw [escaped_cons, List.mem_append, List.mem_cons, ih]
    obtain ⟨he, -⟩ | ⟨d, he, -, -, -, -, hd, hc⟩ | ⟨he, hc, -⟩ := escape_cases c
    · simp [he]
    · simp [he, hd.symm, hc.symm]
    · have h₁ := hexDigit_plain (c.toNat / 16) (by omega)
      have h₂ := hexDigit_plain (c.toNat % 16) (by omega)
      have hn : '\x7d' ≠ c := by
        rintro rfl
        exact absurd hc (by decide)
      simp [he, h₁.2.2.1.symm, h₂.2.2.1.symm, hn]

section Occurrence

/-- The string is a word, or ends with a quote and the word. -/
def Echoes (w s : List Char) : Prop :=
  s = w ∨ '"' :: w <:+ s

instance (w s : List Char) : Decidable (Echoes w s) :=
  inferInstanceAs (Decidable (_ ∨ _))

def Plain (w : List Char) : Prop :=
  ∀ c ∈ w, escape c = [c]

instance (w : List Char) : Decidable (Plain w) :=
  inferInstanceAs (Decidable (∀ _ ∈ _, _))

theorem Plain.quote_eq {w : List Char} (h : Plain w) : quote w = '"' :: (w ++ ['"']) := by
  have he : escaped w = w := by
    induction w with
    | nil => rfl
    | cons c w ih =>
      rw [escaped_cons, h c (by simp), ih fun d hd => h d (by simp [hd])]
      rfl
  rw [Json.quote_eq, he]

theorem prefix_escaped_iff {w s t : List Char} (h : Plain w) :
    w ++ ['"'] <+: escaped s ++ '"' :: t ↔ s = w := by
  induction s generalizing w with
  | nil =>
    cases w with
    | nil => simp [escaped]
    | cons a w =>
      have ha : a ≠ '"' := by
        rintro rfl
        exact absurd (h '"' (by simp)) (by decide)
      simp [escaped, ha]
  | cons c s ih =>
    cases w with
    | nil =>
      obtain ⟨he, hc, -⟩ | ⟨d, he, -⟩ | ⟨he, -⟩ := escape_cases c
      · simp [he, hc.symm]
      · simp [he]
      · simp [he]
    | cons a w =>
      have hw : Plain w := fun d hd => h d (by simp [hd])
      have ha : a ≠ '\\' := by
        rintro rfl
        exact absurd (h '\\' (by simp)) (by decide)
      obtain ⟨he, -⟩ | ⟨d, he, hd⟩ | ⟨he, hd⟩ := escape_cases c
      · simp [he, ih hw, eq_comm]
      · have hc : c ≠ a := by
          rintro rfl
          simp [h c (by simp)] at he
        simp [he, ha, hc]
      · have hc : c ≠ a := by
          rintro rfl
          simp [h c (by simp)] at he
        simp [he, ha, hc]

theorem quote_infix_append_iff {w u t : List Char} (hu : '"' ∉ u) :
    quote w <:+: u ++ t ↔ quote w <:+: t := by
  induction u with
  | nil => rfl
  | cons c u ih =>
    obtain ⟨hc, hu⟩ : '"' ≠ c ∧ '"' ∉ u := by simpa using hu
    rw [List.cons_append, List.infix_cons_iff, ih hu, quote_eq, List.cons_prefix_cons]
    simp [hc]

theorem quote_infix_escaped_iff {w s t : List Char} (h : Plain w) :
    quote w <:+: escaped s ++ '"' :: t ↔ '"' :: w <:+ s ∨ quote w <:+: '"' :: t := by
  induction s with
  | nil => simp [escaped]
  | cons c s ih =>
    rw [escaped_cons, List.append_assoc, List.suffix_cons_iff]
    obtain ⟨he, hc, -⟩ | ⟨d, he, -, hd, -⟩ | ⟨he, hc, hq⟩ := escape_cases c
    · rw [he, quote_infix_append_iff (by simpa using hc.symm), ih]
      simp [hc.symm]
    · rw [he, List.cons_append, List.singleton_append, List.infix_cons_iff, List.infix_cons_iff,
        ih, h.quote_eq, List.cons_prefix_cons, List.cons_prefix_cons, prefix_escaped_iff h,
        List.cons.injEq]
      simp [eq_comm (a := '"'), hd, eq_comm (a := w), or_assoc]
    · have h₁ := hexDigit_plain (c.toNat / 16) (by omega)
      have h₂ := hexDigit_plain (c.toNat % 16) (by omega)
      rw [he, quote_infix_append_iff (by simp [h₁.1.symm, h₂.1.symm]), ih]
      simp [hq.symm]

theorem quote_infix_quote_append_iff {w s t : List Char} (h : Plain w) (ht : ¬ w ++ ['"'] <+: t) :
    quote w <:+: quote s ++ t ↔ Echoes w s ∨ quote w <:+: t := by
  have ht' : ¬ quote w <+: '"' :: t := by
    rw [h.quote_eq, List.cons_prefix_cons]
    exact fun hp => ht hp.2
  have hs : quote s ++ t = '"' :: (escaped s ++ '"' :: t) := by simp [quote_eq]
  rw [hs, List.infix_cons_iff, quote_infix_escaped_iff h, @List.infix_cons_iff _ _ _ t,
    h.quote_eq, List.cons_prefix_cons, prefix_escaped_iff h, ← h.quote_eq]
  simp [Echoes, ht', or_assoc]

end Occurrence

section RoundTrip

theorem pieces?_self {c : Char} (hc : escape c = [c]) (s : List Char) :
    pieces? (c :: s) = (pieces? s).map fun p => (.plain c :: p.1, p.2) := by
  obtain ⟨-, hq, hb, -, hc⟩ | ⟨d, he, -⟩ | ⟨he, -⟩ := escape_cases c
  · rw [pieces?.eq_def]
    split
    · contradiction
    · simp_all
    · simp_all
    · simp_all
    · rename_i heq
      obtain ⟨rfl, rfl⟩ := List.cons.inj heq
      cases pieces? s <;> simp [hb, Nat.not_lt.mpr hc]
  · simp [hc] at he
  · simp [hc] at he

theorem pieces?_backslash {c d : Char} (hd : unescape? d = some c) (hu : d ≠ 'u') (s : List Char) :
    pieces? ('\\' :: d :: s) = (pieces? s).map fun p => (.plain c :: p.1, p.2) := by
  rw [pieces?.eq_def]
  split
  · contradiction
  · simp_all
  · simp_all
  · rename_i heq
    simp only [List.cons.injEq, true_and] at heq
    obtain ⟨rfl, rfl⟩ := heq
    cases pieces? s <;> simp [hd]
  · rename_i hne heq
    obtain ⟨rfl, rfl⟩ := List.cons.inj heq
    exact absurd rfl (hne d s rfl)

theorem pieces?_unit {n : Nat} (hn : n < 32) (s : List Char) :
    pieces? ('\\' :: 'u' :: '0' :: '0' :: hexDigit (n / 16) :: hexDigit (n % 16) :: s)
      = (pieces? s).map fun p => (.unit n :: p.1, p.2) := by
  have h₁ := (hexDigit_plain (n / 16) (by omega)).2.2.2
  have h₂ := (hexDigit_plain (n % 16) (by omega)).2.2.2
  have h₀ : Text.hexValue? '0' = some 0 := by decide
  have hu : unit? '0' '0' (hexDigit (n / 16)) (hexDigit (n % 16)) = some n := by
    simp only [unit?, h₀, h₁, h₂, Option.bind_eq_bind, Option.bind_some, Option.some.injEq]
    omega
  rw [pieces?]
  cases pieces? s <;> simp [hu]

theorem join?_unit {n : Nat} (hn : n < 32) (ps : List Piece) :
    join? (.unit n :: ps) = (join? ps).map (Char.ofNat n :: ·) := by
  have hh : isHighSurrogate n = false := by simp [isHighSurrogate]; omega
  have hl : isLowSurrogate n = false := by simp [isLowSurrogate]; omega
  cases ps with
  | nil => simp [join?, hh, hl]
  | cons p ps => cases p <;> simp [join?, hh, hl]

theorem string?_escaped (s t : List Char) : string? (escaped s ++ '"' :: t) = some (s, t) := by
  have hp : ∃ ps, pieces? (escaped s ++ '"' :: t) = some (ps, t) ∧ join? ps = some s := by
    induction s with
    | nil => exact ⟨[], by simp [escaped, pieces?], rfl⟩
    | cons c s ih =>
      obtain ⟨ps, hps, hj⟩ := ih
      rw [escaped_cons, List.append_assoc]
      obtain ⟨he, -⟩ | ⟨d, he, hd, -, hu, -⟩ | ⟨he, hc, -⟩ := escape_cases c
      · refine ⟨.plain c :: ps, ?_, by simp [join?, hj]⟩
        rw [he, List.singleton_append, pieces?_self he, hps]
        rfl
      · refine ⟨.plain c :: ps, ?_, by simp [join?, hj]⟩
        rw [he, List.cons_append, List.singleton_append, pieces?_backslash hd hu, hps]
        rfl
      · refine ⟨.unit c.toNat :: ps, ?_, by simp [join?_unit hc, hj]⟩
        rw [he]
        simp only [List.cons_append, List.nil_append]
        rw [pieces?_unit hc, hps]
        rfl
  obtain ⟨ps, hps, hj⟩ := hp
  simp [string?, hps, hj]

end RoundTrip
end SceneScript.Json
