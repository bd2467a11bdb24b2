import SceneScript.Proofs.Yaml.LiteralScalar
import SceneScript.Proofs.Yaml.PlainScalar
import SceneScript.Proofs.Yaml.QuotedScalar

namespace SceneScript.Yaml

inductive Written (v : List Char) : Style → List Char → Prop
  | plain : needsQuotes v = false → allowsPlain v → Written v .plain (v ++ ['\n'])
  | single : '\n' ∉ v → allowsSingle v → Written v .singleQuoted (quoteOf true :: singleWritten v)
  | double : Written v .doubleQuoted (quoteOf false :: doubleWritten v)
  | literal : v ≠ [] → hasSpecial v = false → Written v .literal ('|' :: literalWritten v)

theorem printed_literal {v : List Char} (h : styleOf v = .literal) :
    printed v = '|' :: literalWritten v := by
  have hbreak : isBreak '\n' = true := rfl
  unfold printed
  rw [h]
  cases hlast : v.getLast?.any isBreak <;>
    simp [hlast, literalWritten, ended, literalBody_concat true v hbreak]

theorem printed_double {v : List Char} (h : styleOf v = .doubleQuoted) :
    printed v = quoteOf false :: doubleWritten v := by
  simp [printed, h, quoteOf, doubleWritten]

theorem printed_written (v : List Char) : Written v (styleOf v) (printed v) := by
  by_cases hnewline : v.contains '\n'
  · by_cases hliteral : allowsLiteral v
    · have hstyle : styleOf v = .literal := by
        unfold styleOf
        rw [if_pos hnewline, if_pos hliteral]
      rw [printed_literal hstyle, hstyle]
      apply Written.literal
      · rintro rfl
        simp at hnewline
      · simp only [allowsLiteral, Bool.not_eq_true', Bool.or_eq_false_iff] at hliteral
        exact hliteral.2
    · have hstyle : styleOf v = .doubleQuoted := by
        unfold styleOf
        rw [if_pos hnewline, if_neg hliteral]
      rw [printed_double hstyle, hstyle]
      exact .double
  · by_cases hplain : !needsQuotes v && allowsPlain v
    · have hstyle : styleOf v = .plain := by
        unfold styleOf
        rw [if_neg hnewline, if_pos hplain]
      simp only [Bool.and_eq_true, Bool.not_eq_true'] at hplain
      have hprinted : printed v = v ++ ['\n'] := by simp [printed, hstyle]
      rw [hprinted, hstyle]
      exact .plain hplain.1 hplain.2
    · by_cases hsingle : allowsSingle v
      · have hstyle : styleOf v = .singleQuoted := by
          unfold styleOf
          rw [if_neg hnewline, if_neg hplain, if_pos hsingle]
        have hprinted : printed v = quoteOf true :: singleWritten v := by
          simp [printed, hstyle, quoteOf, singleWritten]
        rw [hprinted, hstyle]
        exact .single (by simpa using hnewline) hsingle
      · have hstyle : styleOf v = .doubleQuoted := by
          unfold styleOf
          rw [if_neg hnewline, if_neg hplain, if_neg hsingle]
        rw [printed_double hstyle, hstyle]
        exact .double

theorem isReadable_of_isPrintable {c : Char} (h : isPrintable c) : isReadable c := by
  simp only [isPrintable, Bool.or_eq_true, Bool.and_eq_true, beq_iff_eq, decide_eq_true_eq] at h
  simp only [isReadable, Bool.or_eq_true, Bool.and_eq_true, beq_iff_eq, decide_eq_true_eq]
  omega

theorem unifyBreaks_of_isPrintable {s : List Char} (h : ∀ c ∈ s, isPrintable c) :
    unifyBreaks s = s := by
  induction s with
  | nil => rfl
  | cons c s ih =>
    have hc := h c List.mem_cons_self
    have hi := ih fun d hd => h d (List.mem_cons_of_mem c hd)
    have hreturn : c ≠ '\r' := by
      rintro rfl
      simp [isPrintable] at hc
    have hnext : c ≠ '\x85' := by
      rintro rfl
      simp [isPrintable] at hc
    simp [unifyBreaks, hreturn, hnext, hi]

theorem isPrintable_singleBody {v : List Char} (h : ∀ c ∈ v, isPrintable c) (broken : Bool) :
    ∀ c ∈ singleBody broken v, isPrintable c := by
  induction v generalizing broken with
  | nil => cases broken <;> simp [singleBody, margin, isPrintable]
  | cons d v ih =>
    have hd := h d List.mem_cons_self
    have hi := ih fun c hc => h c (List.mem_cons_of_mem d hc)
    have hspace : isPrintable ' ' = true := rfl
    have hnewline : isPrintable '\n' = true := rfl
    have hquote : isPrintable '\'' = true := rfl
    unfold singleBody
    split
    · simp only [List.forall_mem_append, List.forall_mem_cons]
      refine ⟨?_, hd, hi true⟩
      split <;> simp [hnewline]
    · simp only [List.forall_mem_append]
      refine ⟨⟨?_, ?_⟩, hi false⟩
      · split <;> simp [margin, hspace]
      · split <;> simp [hquote, hd]

theorem isPrintable_literalBody {v : List Char} (h : ∀ c ∈ v, isPrintable c) (broken : Bool) :
    ∀ c ∈ literalBody broken v, isPrintable c := by
  induction v generalizing broken with
  | nil => simp [literalBody]
  | cons d v ih =>
    have hd := h d List.mem_cons_self
    have hi := ih fun c hc => h c (List.mem_cons_of_mem d hc)
    have hspace : isPrintable ' ' = true := rfl
    unfold literalBody
    split
    · simpa [hd] using hi true
    · cases broken <;> simpa [hd, margin, hspace] using hi false

theorem isPrintable_upperHex (width n : Nat) : ∀ c ∈ upperHex width n, isPrintable c := by
  induction width generalizing n with
  | zero => simp [upperHex]
  | succ width ih =>
    have hdigit : ∀ d < 16, isPrintable (Char.ofNat (if d < 10 then 48 + d else 55 + d)) := by
      decide
    have hd := hdigit (n % 16) (Nat.mod_lt n (by omega))
    intro c hc
    simp only [upperHex, List.mem_append, List.mem_singleton] at hc
    rcases hc with hc | rfl
    · exact ih (n / 16) c hc
    · exact hd

theorem isPrintable_escapeCode (c : Char) : ∀ d ∈ escapeCode c, isPrintable d := by
  unfold escapeCode
  split
  iterate 14 simp [isPrintable]
  dsimp only
  split
  · simpa [isPrintable] using isPrintable_upperHex 2 c.toNat
  · split
    · simpa [isPrintable] using isPrintable_upperHex 4 c.toNat
    · simpa [isPrintable] using isPrintable_upperHex 8 c.toNat

theorem isPrintable_doubleBody (c : Char) : ∀ d ∈ doubleBody c, isPrintable d := by
  unfold doubleBody
  split
  · have hslash : isPrintable '\\' = true := rfl
    simpa [hslash] using isPrintable_escapeCode c
  · rename_i hplain
    simp only [Bool.or_eq_true, Bool.not_eq_true', not_or, Bool.not_eq_false] at hplain
    simpa using hplain.1.1.1

theorem isPrintable_literalWritten {v : List Char} (h : ∀ c ∈ v, isPrintable c) :
    ∀ c ∈ literalWritten v, isPrintable c := by
  have hended : ∀ c ∈ ended v, isPrintable c := by
    have hnewline : isPrintable '\n' = true := rfl
    unfold ended
    split
    · exact h
    · simpa [or_imp, forall_and, hnewline] using h
  have hhint : ∀ c ∈ indentHint v, isPrintable c := by
    unfold indentHint
    split <;> simp [isPrintable]
  have hchomp : ∀ c ∈ chompHint v, isPrintable c := by
    rcases chompHint_cases v with h | h | h <;> simp [h, isPrintable]
  simp only [literalWritten, List.forall_mem_append, List.forall_mem_cons]
  exact ⟨⟨hhint, hchomp⟩, rfl, isPrintable_literalBody hended true⟩

theorem isPrintable_written {v text : List Char} {style : Style} (h : Written v style text) :
    ∀ c ∈ text, isPrintable c := by
  have hnewline : isPrintable '\n' = true := rfl
  have hquote : isPrintable '\'' = true := rfl
  have hmark : isPrintable '"' = true := rfl
  cases h with
  | plain _ hallows =>
    simp only [allowsPlain, Bool.not_eq_true', Bool.or_eq_false_iff] at hallows
    simpa [or_imp, forall_and, hnewline] using isPrintable_of_not_hasSpecial hallows.1.1.1.2
  | single _ hallows =>
    simp only [allowsSingle, Bool.not_eq_true', Bool.or_eq_false_iff] at hallows
    simpa [singleWritten, quoteOf, or_imp, forall_and, hnewline, hquote] using
      isPrintable_singleBody (isPrintable_of_not_hasSpecial hallows.2) false
  | double =>
    have hbody : ∀ c ∈ v.flatMap doubleBody, isPrintable c := by
      intro c hc
      obtain ⟨d, -, hd⟩ := List.mem_flatMap.mp hc
      exact isPrintable_doubleBody d c hd
    simp only [doubleWritten, List.forall_mem_append, List.forall_mem_cons]
    exact ⟨hmark, hbody, hmark, hnewline, by simp⟩
  | literal _ hspecial =>
    rw [List.forall_mem_cons]
    exact ⟨rfl, isPrintable_literalWritten (isPrintable_of_not_hasSpecial hspecial)⟩

end SceneScript.Yaml
