import SceneScript.Json.Basic
import SceneScript.Text.Blank

namespace SceneScript

def isNumeral (c : Char) : Bool :=
  c.isDigit || c == '.' || c == 'e' || c == '+' || c == '-'

namespace Text

theorem isBlank_of_isNumeral {c : Char} (h : isNumeral c) : isBlank c = false := by
  have hd : c.isDigit → isBlank c = false := by
    intro hd
    have hn : ∀ n < 58, 48 ≤ n → isBlank (Char.ofNat n) = false := by decide
    simp only [Char.isDigit, Bool.and_eq_true, decide_eq_true_eq] at hd
    have h₁ : 48 ≤ c.toNat := UInt32.le_iff_toNat_le.mp hd.1
    have h₂ : c.toNat ≤ 57 := UInt32.le_iff_toNat_le.mp hd.2
    have hc := hn c.toNat (by omega) h₁
    rwa [Char.ofNat_toNat] at hc
  simp only [isNumeral, Bool.or_eq_true, beq_iff_eq] at h
  rcases h with (((h | rfl) | rfl) | rfl) | rfl
  · exact hd h
  all_goals decide

theorem isNumeral_of_isDigit {c : Char} (h : c.isDigit) : isNumeral c := by
  simp [isNumeral, h]

theorem isDigit_of_mem_natural {n : Nat} {c : Char} (h : c ∈ natural n) : c.isDigit :=
  Nat.isDigit_of_mem_toDigits (by decide) (by decide) h

theorem natural_ne_nil (n : Nat) : natural n ≠ [] :=
  Nat.toDigits_ne_nil

theorem isNumeral_of_mem_natural {n : Nat} {c : Char} (h : c ∈ natural n) : isNumeral c :=
  isNumeral_of_isDigit (isDigit_of_mem_natural h)

theorem isNumeral_of_mem_integer {n : Int} {c : Char} (h : c ∈ integer n) : isNumeral c := by
  cases n with
  | ofNat n => exact isNumeral_of_mem_natural h
  | negSucc n =>
    rcases List.mem_cons.mp h with rfl | h
    · rfl
    · exact isNumeral_of_mem_natural h

theorem integer_ne_nil (n : Int) : integer n ≠ [] := by
  cases n with
  | ofNat n => exact natural_ne_nil n
  | negSucc n => simp [integer]

end Text

namespace Binary64

theorem isNumeral_of_mem_zeros {n : Nat} {c : Char} (h : c ∈ zeros n) : isNumeral c := by
  rw [List.eq_of_mem_replicate h]
  rfl

theorem isNumeral_of_mem_positional {d : Decimal} {c : Char} (h : c ∈ d.positional) :
    isNumeral c := by
  unfold Decimal.positional at h
  simp only at h
  split at h
  · simp only [List.mem_append, List.mem_cons, List.not_mem_nil, or_false] at h
    rcases h with (h | h) | rfl | rfl
    · exact Text.isNumeral_of_mem_natural h
    · exact isNumeral_of_mem_zeros h
    · rfl
    · rfl
  · have hp : ∀ c ∈ zeros ((-d.exponent).toNat + 1 - (Text.natural d.digits).length)
        ++ Text.natural d.digits, isNumeral c := by
      intro c hc
      rcases List.mem_append.mp hc with hc | hc
      · exact isNumeral_of_mem_zeros hc
      · exact Text.isNumeral_of_mem_natural hc
    rcases List.mem_append.mp h with h | h
    · exact hp c (List.mem_of_mem_take h)
    · rcases List.mem_cons.mp h with rfl | h
      · rfl
      · exact hp c (List.mem_of_mem_drop h)

theorem isNumeral_of_mem_scientific {d : Decimal} {c : Char} (h : c ∈ d.scientific) :
    isNumeral c := by
  unfold Decimal.scientific at h
  have hd : ∀ c ∈ (Text.natural d.digits).drop 1, isNumeral c :=
    fun c hc => Text.isNumeral_of_mem_natural (List.mem_of_mem_drop hc)
  simp only [List.mem_append, List.mem_cons] at h
  rcases h with (h | h) | rfl | h
  · exact Text.isNumeral_of_mem_natural (List.mem_of_mem_take h)
  · split at h
    · simp at h
    · rcases List.mem_cons.mp h with rfl | h
      · rfl
      · exact hd c h
  · rfl
  · split at h
    · rcases List.mem_cons.mp h with rfl | h
      · rfl
      · exact Text.isNumeral_of_mem_integer h
    · exact Text.isNumeral_of_mem_integer h

def Decimal.power (d : Decimal) : Int :=
  d.exponent + (Text.natural d.digits).length - 1

def Decimal.body (d : Decimal) : List Char :=
  if positionalRange.1 ≤ d.power && d.power ≤ positionalRange.2 then d.positional
  else d.scientific

theorem text_eq (x : Binary64) :
    x.text = if x.negative then '-' :: x.shortest.body else x.shortest.body := rfl

theorem isNumeral_of_mem_body {d : Decimal} {c : Char} (h : c ∈ d.body) : isNumeral c := by
  unfold Decimal.body at h
  split at h
  · exact isNumeral_of_mem_positional h
  · exact isNumeral_of_mem_scientific h

theorem body_ne_nil (d : Decimal) : d.body ≠ [] := by
  unfold Decimal.body
  split
  · simp only [Decimal.positional]
    split <;> simp
  · simp [Decimal.scientific]

theorem isNumeral_of_mem_text {x : Binary64} {c : Char} (h : c ∈ x.text) : isNumeral c := by
  rw [text_eq] at h
  split at h
  · rcases List.mem_cons.mp h with rfl | h
    · rfl
    · exact isNumeral_of_mem_body h
  · exact isNumeral_of_mem_body h

theorem text_ne_nil (x : Binary64) : x.text ≠ [] := by
  rw [text_eq]
  split
  · simp
  · exact body_ne_nil _

end Binary64

namespace JsonNumber

theorem isNumeral_of_mem_text {n : JsonNumber} {c : Char} (h : c ∈ n.text) : isNumeral c := by
  cases n with
  | whole n => exact Text.isNumeral_of_mem_integer h
  | real x => exact Binary64.isNumeral_of_mem_text h

theorem text_ne_nil (n : JsonNumber) : n.text ≠ [] := by
  cases n with
  | whole n => exact Text.integer_ne_nil n
  | real x => exact Binary64.text_ne_nil x

end JsonNumber
end SceneScript
