import Mathlib.Data.Nat.Digits.Defs
import SceneScript.Proofs.Script.ReadBack

namespace SceneScript

namespace Text

def decimal (ds : List Char) : Nat :=
  Nat.ofDigits 10 (ds.reverse.map fun d => d.toNat - '0'.toNat)

structure Digits (ds : List Char) : Prop where
  nonempty : ds ≠ []
  digit : ∀ d ∈ ds, d.isDigit

inductive Spells : List Char → Int → Prop
  | bare {ds : List Char} : Digits ds → Spells ds (decimal ds)
  | plus {ds : List Char} : Digits ds → Spells ('+' :: ds) (decimal ds)
  | minus {ds : List Char} : Digits ds → Spells ('-' :: ds) (-(decimal ds : Int))

theorem ofDigitChars_eq_decimal (ds : List Char) : Nat.ofDigitChars 10 ds 0 = decimal ds := by
  induction ds using List.reverseRecOn with
  | nil => rfl
  | append_singleton ds d ih =>
    rw [Nat.ofDigitChars_append, ih, Nat.ofDigitChars_cons, Nat.ofDigitChars_nil, decimal, decimal,
      List.reverse_append, List.reverse_singleton, List.singleton_append, List.map_cons,
      Nat.ofDigits_cons, Nat.add_comm]

theorem digits_iff {s : List Char} :
    Digits s ↔ (s.isEmpty || !s.all Char.isDigit) = false := by
  rw [Bool.or_eq_false_iff, List.isEmpty_eq_false_iff, Bool.not_eq_false', List.all_eq_true]
  exact ⟨fun h => ⟨h.nonempty, h.digit⟩, fun h => ⟨h.1, h.2⟩⟩

theorem digits?_eq_some_iff {s : List Char} {n : Nat} :
    digits? s = some n ↔ Digits s ∧ decimal s = n := by
  unfold digits?
  split
  · rename_i hnot
    refine iff_of_false (by simp) fun h => ?_
    rw [digits_iff.mp h.1] at hnot
    simp at hnot
  · rename_i hdigits
    have hs : Digits s := digits_iff.mpr (by simpa using hdigits)
    rw [Option.some.injEq, ofDigitChars_eq_decimal, and_iff_right hs]

theorem Digits.not_digit {d : Char} {ds : List Char} (h : Digits (d :: ds))
    (hd : d.isDigit = false) : False := by
  simp [h.digit d List.mem_cons_self] at hd

theorem spells_plus_iff {ds : List Char} {n : Int} :
    Spells ('+' :: ds) n ↔ Digits ds ∧ (decimal ds : Int) = n := by
  constructor
  · intro h
    cases h with
    | bare hs => exact (hs.not_digit (by decide)).elim
    | plus hs => exact ⟨hs, rfl⟩
  · rintro ⟨hs, rfl⟩
    exact .plus hs

theorem spells_minus_iff {ds : List Char} {n : Int} :
    Spells ('-' :: ds) n ↔ Digits ds ∧ -(decimal ds : Int) = n := by
  constructor
  · intro h
    cases h with
    | bare hs => exact (hs.not_digit (by decide)).elim
    | minus hs => exact ⟨hs, rfl⟩
  · rintro ⟨hs, rfl⟩
    exact .minus hs

theorem spells_bare_iff {s : List Char} {n : Int} (hplus : ∀ ds, s = '+' :: ds → False)
    (hminus : ∀ ds, s = '-' :: ds → False) : Spells s n ↔ Digits s ∧ (decimal s : Int) = n := by
  constructor
  · intro h
    cases h with
    | bare hs => exact ⟨hs, rfl⟩
    | plus hs => exact (hplus _ rfl).elim
    | minus hs => exact (hminus _ rfl).elim
  · rintro ⟨hs, rfl⟩
    exact .bare hs

theorem Spells.unique {s : List Char} {m n : Int} (hm : Spells s m) (hn : Spells s n) : m = n := by
  cases hm with
  | bare hs =>
    cases hn with
    | bare => rfl
    | plus | minus => exact (hs.not_digit (by decide)).elim
  | plus => exact (spells_plus_iff.mp hn).2
  | minus => exact (spells_minus_iff.mp hn).2

theorem Spells.isNumeral {s : List Char} {n : Int} (h : Spells s n) : ∀ c ∈ s, isNumeral c := by
  cases h with
  | bare hs => exact fun c hc => isNumeral_of_isDigit (hs.digit c hc)
  | plus hs | minus hs =>
    intro c hc
    rcases List.mem_cons.mp hc with rfl | hc
    · rfl
    · exact isNumeral_of_isDigit (hs.digit c hc)

theorem signed_eq_some_iff {sign : Int → Int} {ds : List Char} {n : Int} :
    ((digits? ds).bind fun m => some (m : Int)).map sign = some n ↔
      Digits ds ∧ sign (decimal ds) = n := by
  simp only [Option.map_eq_some_iff, Option.bind_eq_some_iff, digits?_eq_some_iff,
    Option.some.injEq]
  constructor
  · rintro ⟨-, ⟨-, ⟨hs, rfl⟩, rfl⟩, hn⟩
    exact ⟨hs, hn⟩
  · rintro ⟨hs, hn⟩
    exact ⟨_, ⟨_, ⟨hs, rfl⟩, rfl⟩, hn⟩

theorem integerWithin?_eq_some_iff {least greatest n : Int} {s : List Char} :
    integerWithin? least greatest s = some n ↔ Spells s n ∧ least ≤ n ∧ n ≤ greatest := by
  simp only [integerWithin?, Option.filter_eq_some_iff, Bool.and_eq_true, decide_eq_true_eq]
  refine and_congr_left fun _ => ?_
  split
  · exact signed_eq_some_iff.trans spells_plus_iff.symm
  · exact signed_eq_some_iff.trans spells_minus_iff.symm
  · rename_i hplus hminus
    exact signed_eq_some_iff.trans (spells_bare_iff hplus hminus).symm

end Text

namespace ArgValue

open Text

variable {raw : List Char}

theorem ofRaw_cases (raw : List Char) :
    (∃ b, raw = display (.flag b) ∧ ofRaw raw = .flag b) ∨
      (∃ n, Spells raw n ∧ -(2 ^ 63) ≤ n ∧ n ≤ 2 ^ 63 - 1 ∧ ofRaw raw = .number (.whole n)) ∨
      (∃ x, ofRaw raw = .number (.real x)) ∨ ofRaw raw = .text (String.ofList raw) := by
  have hbound : (twoTo 63 : Int) = 2 ^ 63 := rfl
  by_cases htrue : raw = "true".toList
  · exact .inl ⟨true, htrue, by rw [ofRaw, if_pos htrue]⟩
  by_cases hfalse : raw = "false".toList
  · exact .inl ⟨false, hfalse, by rw [ofRaw, if_neg htrue, if_pos hfalse]⟩
  right
  rw [ofRaw, if_neg htrue, if_neg hfalse, hbound]
  cases hwhole : integerWithin? (-2 ^ 63) (2 ^ 63 - 1) raw with
  | some n =>
    obtain ⟨hspells, hleast, hgreatest⟩ := integerWithin?_eq_some_iff.mp hwhole
    exact .inl ⟨n, hspells, hleast, hgreatest, rfl⟩
  | none =>
    right
    cases Binary64.ofText? raw with
    | some x => exact .inl ⟨x, rfl⟩
    | none => exact .inr rfl

theorem ofRaw_eq_flag_iff {b : Bool} : ofRaw raw = .flag b ↔ raw = display (.flag b) := by
  constructor
  · intro h
    obtain ⟨c, hraw, heq⟩ | ⟨n, -, -, -, heq⟩ | ⟨x, heq⟩ | heq := ofRaw_cases raw
    · rw [hraw, ArgValue.flag.inj (heq.symm.trans h)]
    all_goals simp [heq] at h
  · rintro rfl
    cases b <;> decide

theorem ofRaw_eq_whole_iff {n : Int} :
    ofRaw raw = .number (.whole n) ↔ Spells raw n ∧ -2 ^ 63 ≤ n ∧ n ≤ 2 ^ 63 - 1 := by
  constructor
  · intro h
    obtain ⟨b, -, heq⟩ | ⟨m, hspells, hleast, hgreatest, heq⟩ | ⟨x, heq⟩ | heq := ofRaw_cases raw
    · simp [heq] at h
    · obtain rfl : m = n := by simpa using heq.symm.trans h
      exact ⟨hspells, hleast, hgreatest⟩
    all_goals simp [heq] at h
  · intro h
    exact ofRaw_of_isNumeral h.1.isNumeral (integerWithin?_eq_some_iff.mpr h)

theorem ofRaw_display (h : ∀ x, ofRaw raw ≠ .number (.real x)) :
    ofRaw (ofRaw raw).display = ofRaw raw := by
  obtain ⟨b, -, heq⟩ | ⟨n, -, hleast, hgreatest, heq⟩ | ⟨x, heq⟩ | heq := ofRaw_cases raw
  · rw [heq, ofRaw_eq_flag_iff]
  · rw [heq]
    exact ofRaw_integer hleast hgreatest
  · exact absurd heq (h x)
  · have hshown : (ofRaw raw).display = raw := by
      rw [heq]
      exact String.toList_ofList
    rw [hshown]

/-- A text is a whole number of 64 bits exactly if it spells one, with all of its digits, and a flag
exactly if it is one of two words. Whatever is read, except a fraction, is read again from the text
by which it is shown. -/
theorem ofRaw_exact (raw : List Char) :
    (∀ n, ofRaw raw = .number (.whole n) ↔ Spells raw n ∧ -2 ^ 63 ≤ n ∧ n ≤ 2 ^ 63 - 1) ∧
      (ofRaw raw = .flag true ↔ raw = "true".toList) ∧
      (ofRaw raw = .flag false ↔ raw = "false".toList) ∧
      ((∀ x, ofRaw raw ≠ .number (.real x)) → ofRaw (ofRaw raw).display = ofRaw raw) :=
  ⟨fun _ => ofRaw_eq_whole_iff, ofRaw_eq_flag_iff, ofRaw_eq_flag_iff, ofRaw_display⟩

theorem ofRaw_exact_least :
    ofRaw "-009223372036854775808".toList = .number (.whole (-2 ^ 63)) ∧
      (∀ x, ofRaw "-009223372036854775808".toList ≠ .number (.real x)) ∧
      ofRaw (ofRaw "-009223372036854775808".toList).display = .number (.whole (-2 ^ 63)) ∧
      Spells "-9223372036854775809".toList (-2 ^ 63 - 1) ∧
      ∀ n, ofRaw "-9223372036854775809".toList ≠ .number (.whole n) := by
  have hspells : Spells "-009223372036854775808".toList (-2 ^ 63) := by
    have hdigits : Digits "009223372036854775808".toList := digits_iff.mpr (by decide)
    have hvalue : decimal "009223372036854775808".toList = 2 ^ 63 := by decide +kernel
    have hminus := Spells.minus hdigits
    rwa [hvalue] at hminus
  have hbelow : Spells "-9223372036854775809".toList (-2 ^ 63 - 1) := by
    have hdigits : Digits "9223372036854775809".toList := digits_iff.mpr (by decide)
    have hvalue : decimal "9223372036854775809".toList = 2 ^ 63 + 1 := by decide +kernel
    have hminus := Spells.minus hdigits
    rwa [hvalue] at hminus
  obtain ⟨hwhole, -, -, hshown⟩ := ofRaw_exact "-009223372036854775808".toList
  have hleast := (hwhole (-2 ^ 63)).mpr ⟨hspells, Int.le_refl _, by decide⟩
  have hreal : ∀ x, ofRaw "-009223372036854775808".toList ≠ .number (.real x) := by
    intro x hx
    have hboth := hleast.symm.trans hx
    simp at hboth
  refine ⟨hleast, hreal, ?_, hbelow, fun n hn => ?_⟩
  · rw [hshown hreal, hleast]
  · obtain ⟨hs, hle, -⟩ := ((ofRaw_exact "-9223372036854775809".toList).1 n).mp hn
    have hvalue := hs.unique hbelow
    omega

end ArgValue
end SceneScript
