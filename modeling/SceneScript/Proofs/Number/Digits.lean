import SceneScript.Number.Shortest
import SceneScript.Proofs.Number.Rounding

namespace SceneScript.Binary64

def Decimal.value (d : Decimal) : ℚ :=
  d.digits * 10 ^ d.exponent

namespace Interval

variable {i : Interval} {exponent : Int} {n : Nat}

theorem pick?_holds (h : i.pick? exponent = some n) : i.holds exponent n ∧ 0 < n := by
  unfold pick? at h
  simp only at h
  split at h
  · simp at h
  · rename_i hbelow _
    obtain rfl := Option.some.inj h
    simp only [Bool.and_eq_true, decide_eq_true_eq] at hbelow
    exact ⟨hbelow.2, hbelow.1⟩
  · rename_i _ habove
    obtain rfl := Option.some.inj h
    exact ⟨habove, Nat.succ_pos _⟩
  · rename_i hbelow habove
    simp only [Bool.and_eq_true, decide_eq_true_eq] at hbelow
    split_ifs at h <;> obtain rfl := Option.some.inj h
    · exact ⟨hbelow.2, hbelow.1⟩
    · exact ⟨habove, Nat.succ_pos _⟩
    · exact ⟨hbelow.2, hbelow.1⟩
    · exact ⟨habove, Nat.succ_pos _⟩

theorem holds_le (h : i.holds exponent n) : n * i.step exponent ≤ i.high * i.scale exponent := by
  unfold holds at h
  simp only at h
  split at h <;> simp only [Bool.and_eq_true, decide_eq_true_eq] at h <;> omega

theorem value_le_of_holds (h : i.holds exponent n) :
    (n : ℚ) * 10 ^ exponent ≤ i.high * 2 ^ i.unit := by
  have hle := Nat.cast_le (α := ℚ).mpr (holds_le h)
  have hten := pow_toNat (b := 10) (by norm_num) exponent
  have htwo := pow_toNat (b := 2) (by norm_num) i.unit
  have hpos : (0 : ℚ) < 10 ^ (-exponent).toNat * 2 ^ (-i.unit).toNat := by positivity
  simp only [step, scale, Nat.cast_mul, cast_tenTo, cast_twoTo, hten, htwo] at hle
  refine le_of_mul_le_mul_right ?_ hpos
  calc (n : ℚ) * 10 ^ exponent * (10 ^ (-exponent).toNat * 2 ^ (-i.unit).toNat)
      = n * (10 ^ exponent * 10 ^ (-exponent).toNat * 2 ^ (-i.unit).toNat) := by ring
    _ ≤ i.high * (10 ^ (-exponent).toNat * (2 ^ i.unit * 2 ^ (-i.unit).toNat)) := hle
    _ = _ := by ring

theorem search_cases (i : Interval) (tries : Nat) (exponent : Int) :
    ((i.search tries exponent).digits = 0 ∧
        (i.search tries exponent).exponent = exponent - tries ∧
        ∀ j < tries, i.pick? (exponent - j) = none) ∨
      (0 < (i.search tries exponent).digits ∧
        i.holds (i.search tries exponent).exponent (i.search tries exponent).digits) := by
  induction tries generalizing exponent with
  | zero => exact .inl ⟨rfl, by simp [search], by simp⟩
  | succ tries ih =>
    rw [search]
    cases hp : i.pick? exponent with
    | some n => exact .inr ⟨(pick?_holds hp).2, (pick?_holds hp).1⟩
    | none =>
      simp only
      obtain ⟨hzero, hexponent, hnone⟩ | h := ih (exponent - 1)
      · refine .inl ⟨hzero, by rw [hexponent]; push_cast; ring, fun j hj => ?_⟩
        cases j with
        | zero => simpa using hp
        | succ j =>
          have hj := hnone j (by omega)
          rwa [show exponent - ((j + 1 : Nat) : Int) = exponent - 1 - j by push_cast; ring]
      · exact .inr h

theorem pick?_isSome (hlow : i.low ≤ i.centre) (hhigh : i.high = i.centre + 2)
    (h : i.step exponent < 2 * i.scale exponent) : (i.pick? exponent).isSome := by
  have hpos : 0 < i.step exponent :=
    Nat.mul_pos (Nat.pow_pos (by decide)) (Nat.pow_pos (by decide))
  have hdiv := Nat.div_add_mod (i.centre * i.scale exponent) (i.step exponent)
  have hmod := Nat.mod_lt (i.centre * i.scale exponent) hpos
  have habove : i.holds exponent (i.centre * i.scale exponent / i.step exponent + 1) := by
    have hle := Nat.mul_le_mul_right (i.scale exponent) hlow
    unfold holds
    simp only [hhigh]
    generalize i.centre * i.scale exponent / i.step exponent = below at *
    generalize hrest : i.centre * i.scale exponent % i.step exponent = rest at *
    have hpoint : (below + 1) * i.step exponent = i.step exponent * below + i.step exponent := by
      ring
    rw [hpoint, Nat.add_mul]
    split <;> simp only [Bool.and_eq_true, decide_eq_true_eq] <;> omega
  unfold pick?
  simp only [habove]
  split
  · simp_all
  · rfl
  · rfl
  · split_ifs <;> rfl

end Interval

theorem shortest_value_le (x : Binary64) :
    x.shortest.value ≤ (x.significand + 1 / 2) * 2 ^ x.exponent := by
  have hpos : (0 : ℚ) ≤ (x.significand + 1 / 2) * 2 ^ x.exponent := by positivity
  unfold shortest
  split_ifs with hz
  · simpa [Decimal.value] using hpos
  · simp only
    obtain ⟨hzero, -, -⟩ | ⟨-, hholds⟩ := Interval.search_cases x.interval 24
      (Int.fdiv ((x.exponent + x.significand.log2 + 1) * 30103) 100000 + 2)
    · rw [Decimal.value, hzero, Nat.cast_zero, zero_mul]
      exact hpos
    · refine (Interval.value_le_of_holds hholds).trans (le_of_eq ?_)
      simp only [interval]
      rw [zpow_sub₀ (by norm_num)]
      push_cast
      ring

theorem step_lt_two_scale {i : Interval} {exponent : Int} (h₀ : 0 ≤ exponent)
    (h₁ : 4 * exponent ≤ i.unit) : i.step exponent < 2 * i.scale exponent := by
  have hten : tenTo exponent.toNat ≤ twoTo i.unit.toNat := by
    calc 10 ^ exponent.toNat ≤ 16 ^ exponent.toNat := Nat.pow_le_pow_left (by decide) _
      _ = 2 ^ (4 * exponent.toNat) := by rw [Nat.pow_mul]
      _ ≤ 2 ^ i.unit.toNat := Nat.pow_le_pow_right (by decide) (by omega)
  have hunit : (-i.unit).toNat = 0 := by omega
  have hexponent : (-exponent).toNat = 0 := by omega
  have hpos : 0 < twoTo i.unit.toNat := Nat.two_pow_pos _
  have hone : twoTo 0 = 1 ∧ tenTo 0 = 1 := by decide
  rw [Interval.step, Interval.scale, hunit, hexponent, hone.1, hone.2]
  omega

theorem shortest_digits_pos {x : Binary64} (h₀ : 0 < x.shortest.exponent)
    (h₁ : x.shortest.exponent ≤ 15) : 0 < x.shortest.digits := by
  unfold shortest at h₀ h₁ ⊢
  split_ifs at h₀ h₁ ⊢ with hz
  · simp at h₀
  · simp only at h₀ h₁ ⊢
    have hlog : x.significand.log2 < 53 := (Nat.log2_lt hz).mpr x.significand_lt
    obtain ⟨-, hexponent, hnone⟩ | ⟨hpos, -⟩ := Interval.search_cases x.interval 24
      (Int.fdiv ((x.exponent + x.significand.log2 + 1) * 30103) 100000 + 2)
    · rw [hexponent] at h₀ h₁
      rw [Int.fdiv_eq_ediv_of_nonneg _ (by decide)] at h₀ h₁ hnone
      -- the grid of the last try is finer than half of the interval
      have hlow : x.interval.low ≤ x.interval.centre := by
        simp only [interval]
        split_ifs <;> omega
      have hstep : x.interval.step
          ((x.exponent + x.significand.log2 + 1) * 30103 / 100000 + 2 - (23 : Nat)) <
          2 * x.interval.scale
            ((x.exponent + x.significand.log2 + 1) * 30103 / 100000 + 2 - (23 : Nat)) := by
        refine step_lt_two_scale (by omega) ?_
        simp only [interval]
        omega
      have hsome := Interval.pick?_isSome hlow rfl hstep
      rw [hnone 23 (by decide)] at hsome
      simp at hsome
    · exact hpos

end SceneScript.Binary64
