import SceneScript.Json.Reader
import SceneScript.Proofs.Number.Characters

namespace SceneScript

namespace Text

theorem natural_head_ne_zero {n : Nat} (h : 0 < n) : (natural n).head? ≠ some '0' := by
  induction n using Nat.strongRecOn with
  | _ n ih =>
    by_cases hn : n < 10
    · have hd : ∀ m < 10, 0 < m → Nat.digitChar m ≠ '0' := by decide
      simpa [natural, Nat.toDigits_of_lt_base hn] using hd n hn h
    · have hq : natural n = natural (n / 10) ++ [Nat.digitChar (n % 10)] :=
        Nat.toDigits_of_base_le (by decide) (by omega)
      have hi := ih (n / 10) (by omega) (by omega)
      obtain ⟨c, t, hc⟩ := List.exists_cons_of_ne_nil (natural_ne_nil (n / 10))
      rw [hc] at hi
      simpa [hq, hc] using hi

end Text

namespace Json

open Text

def Stops (s : List Char) : Prop :=
  s = [] ∨ ∃ c t, s = c :: t ∧ (c = ',' ∨ c = '\n')

theorem takeWhile_digits {ds s : List Char} (hd : ∀ c ∈ ds, c.isDigit)
    (hs : ∀ c ∈ s.head?, c.isDigit = false) :
    (ds ++ s).takeWhile Char.isDigit = ds ∧ (ds ++ s).dropWhile Char.isDigit = s := by
  rw [List.takeWhile_append_of_pos hd, List.dropWhile_append_of_pos hd]
  cases s with
  | nil => simp
  | cons c s => simp [hs c (by simp)]

theorem Stops.not_digit {s : List Char} (h : Stops s) : ∀ c ∈ s.head?, c.isDigit = false := by
  obtain rfl | ⟨c, t, rfl, rfl | rfl⟩ := h <;> simp

/-- The digits of a number without sign: no zero comes before another digit. -/
def Leads (ds : List Char) : Prop :=
  ds ≠ [] ∧ (∀ c ∈ ds, c.isDigit) ∧ (ds.head? = some '0' → ds.length = 1)

theorem leads_natural (n : Nat) : Leads (natural n) := by
  refine ⟨natural_ne_nil n, fun c hc => isDigit_of_mem_natural hc, fun h => ?_⟩
  obtain rfl | hn := Nat.eq_zero_or_pos n
  · rfl
  · exact absurd h (natural_head_ne_zero hn)

theorem unsignedNumeral?_leads {ds s : List Char} (negative : Bool) (hd : Leads ds)
    (hs : ∀ c ∈ s.head?, c.isDigit = false) :
    unsignedNumeral? negative (ds ++ s) = (fraction? s).bind fun f =>
      (power? f.2).map fun p => (⟨negative, ds, f.1, p.1⟩, p.2) := by
  obtain ⟨hn, hd, hz⟩ := hd
  obtain ⟨ht, hr⟩ := takeWhile_digits hd hs
  have hcond : (ds.isEmpty || (ds.head? == some '0' && ds.length != 1)) = false := by
    simpa [hn] using hz
  simp only [unsignedNumeral?, ht, hr, hcond, Bool.false_eq_true, if_false]
  cases fraction? s with
  | none => rfl
  | some f => cases hp : power? f.2 <;> simp [hp]

theorem Stops.fraction? {s : List Char} (h : Stops s) : fraction? s = some (none, s) := by
  obtain rfl | ⟨c, t, rfl, rfl | rfl⟩ := h <;> rfl

theorem Stops.power? {s : List Char} (h : Stops s) : power? s = some (none, s) := by
  obtain rfl | ⟨c, t, rfl, rfl | rfl⟩ := h <;> rfl

theorem unsignedNumeral?_natural (negative : Bool) (n : Nat) {s : List Char} (h : Stops s) :
    unsignedNumeral? negative (natural n ++ s) = some (⟨negative, natural n, none, none⟩, s) := by
  rw [unsignedNumeral?_leads negative (leads_natural n) h.not_digit, h.fraction?]
  simp [h.power?]

theorem numeral?_of_leads {ds s : List Char} (h : Leads ds) :
    numeral? (ds ++ s) = unsignedNumeral? false (ds ++ s) := by
  obtain ⟨hn, hd, -⟩ := h
  cases ds with
  | nil => exact absurd rfl hn
  | cons c ds =>
    have hc : c ≠ '-' := by
      rintro rfl
      exact absurd (hd '-' (by simp)) (by decide)
    rw [List.cons_append, numeral?.eq_def]
    split
    · simp_all
    · rfl

def InWord (n : Int) : Prop :=
  -(twoTo 63 : Int) ≤ n ∧ n ≤ greatestSignificand

instance (n : Int) : Decidable (InWord n) :=
  inferInstanceAs (Decidable (_ ∧ _))

theorem read_integer {n : Int} (hn : InWord n) {s : List Char} (h : Stops s) :
    ∃ m : Numeral, numeral? (integer n ++ s) = some (m, s) ∧ m.value? = some (.whole n) := by
  obtain ⟨hlow, hhigh⟩ := hn
  cases n with
  | ofNat n =>
    refine ⟨⟨false, natural n, none, none⟩, ?_, ?_⟩
    · rw [integer, numeral?_of_leads (leads_natural n)]
      exact unsignedNumeral?_natural false n h
    · have hle : n ≤ greatestSignificand := Int.ofNat_le.mp hhigh
      simp [Numeral.value?, natural, Nat.ofDigitChars_ten_toDigits, hle]
  | negSucc n =>
    refine ⟨⟨true, natural (n + 1), none, none⟩, unsignedNumeral?_natural true (n + 1) h, ?_⟩
    have hle : n + 1 ≤ twoTo 63 := by
      rw [Int.negSucc_eq] at hlow
      omega
    simp [Numeral.value?, natural, Nat.ofDigitChars_ten_toDigits, hle, Int.negSucc_eq]

end Json
end SceneScript
