import Mathlib.Algebra.Order.Field.Power
import Mathlib.Algebra.Order.Field.Rat
import Mathlib.Tactic.FieldSimp
import Mathlib.Tactic.GCongr
import Mathlib.Tactic.Linarith
import Mathlib.Tactic.NormNum
import Mathlib.Tactic.Positivity
import Mathlib.Tactic.Ring
import SceneScript.Number.Reading

namespace SceneScript

theorem cast_twoTo (n : Nat) : (twoTo n : ℚ) = 2 ^ n := by
  simp [twoTo]

theorem cast_tenTo (n : Nat) : (tenTo n : ℚ) = 10 ^ n := by
  simp [tenTo]

theorem pow_toNat {b : ℚ} (hb : b ≠ 0) (z : Int) : b ^ z.toNat = b ^ z * b ^ (-z).toNat := by
  obtain ⟨n, rfl | rfl⟩ := z.eq_nat_or_neg
  · simp
  · simp [hb]

namespace Binary64

def value (x : Binary64) : ℚ :=
  x.significand * 2 ^ x.exponent

@[simp]
theorem zero_significand (negative : Bool) : (zero negative).significand = 0 :=
  rfl

theorem value_nonneg (x : Binary64) : 0 ≤ x.value := by
  unfold value
  positivity

theorem ratio_value (x : Binary64) : (x.ratio.1 : ℚ) / x.ratio.2 = x.value := by
  have h := pow_toNat (b := 2) (by norm_num) x.exponent
  have hp : (0 : ℚ) < 2 ^ (-x.exponent).toNat := by positivity
  simp only [ratio, Nat.cast_mul, cast_twoTo, h, value]
  field_simp

theorem ratio_pos (x : Binary64) : 0 < x.ratio.2 :=
  Nat.two_pow_pos _

theorem roundQuotient_near (num : Nat) {den : Nat} (hd : 0 < den) :
    (roundQuotient num den : ℚ) ≤ num / den + 1 / 2 ∧
      (num : ℚ) / den - 1 / 2 ≤ roundQuotient num den := by
  have hq : (0 : ℚ) < den := by exact_mod_cast hd
  obtain ⟨hlow, hhigh⟩ : 2 * num ≤ 2 * roundQuotient num den * den + den ∧
      2 * roundQuotient num den * den ≤ 2 * num + den := by
    have hdiv := Nat.div_add_mod num den
    have hmod := Nat.mod_lt num hd
    unfold roundQuotient
    generalize num / den = low at *
    generalize num % den = rest at *
    subst hdiv
    simp only
    split_ifs <;> constructor <;> nlinarith
  have hlow' : (2 : ℚ) * num ≤ 2 * roundQuotient num den * den + den := by exact_mod_cast hlow
  have hhigh' : (2 : ℚ) * roundQuotient num den * den ≤ 2 * num + den := by
    exact_mod_cast hhigh
  constructor
  · rw [div_add' _ _ _ hq.ne', le_div_iff₀ hq]
    linarith
  · rw [div_sub' hq.ne', div_le_iff₀ hq]
    linarith

theorem le_floorLog2_iff (num : Nat) {den : Nat} (hd : 0 < den) (z : Int) :
    den * twoTo z.toNat ≤ num * twoTo (-z).toNat ↔ (2 : ℚ) ^ z ≤ num / den := by
  have hq : (0 : ℚ) < den := by exact_mod_cast hd
  have hp : (0 : ℚ) < 2 ^ (-z).toNat := by positivity
  rw [← Nat.cast_le (α := ℚ), Nat.cast_mul, Nat.cast_mul, cast_twoTo, cast_twoTo,
    pow_toNat (by norm_num) z, ← mul_assoc, mul_le_mul_iff_left₀ hp, le_div_iff₀ hq, mul_comm]

theorem log2_spec {n : Nat} (hn : 0 < n) :
    (2 : ℚ) ^ (n.log2 : Int) ≤ n ∧ (n : ℚ) < 2 ^ ((n.log2 : Int) + 1) := by
  have hlow := Nat.log2_self_le (n := n) (by omega)
  have hhigh := Nat.lt_log2_self (n := n)
  constructor
  · rw [zpow_natCast]
    exact_mod_cast hlow
  · have hz : (n.log2 : Int) + 1 = ((n.log2 + 1 : Nat) : Int) := by push_cast; rfl
    rw [hz, zpow_natCast]
    exact_mod_cast hhigh

theorem floorLog2_spec {num den : Nat} (hn : 0 < num) (hd : 0 < den) :
    (2 : ℚ) ^ floorLog2 num den ≤ num / den ∧ (num : ℚ) / den < 2 ^ (floorLog2 num den + 1) := by
  have hq : (0 : ℚ) < den := by exact_mod_cast hd
  obtain ⟨hnlow, hnhigh⟩ := log2_spec hn
  obtain ⟨hdlow, hdhigh⟩ := log2_spec hd
  have hcond := le_floorLog2_iff num hd ((num.log2 : Int) - (den.log2 : Int))
  unfold floorLog2
  simp only
  split_ifs with h
  · refine ⟨hcond.mp h, ?_⟩
    rw [div_lt_iff₀ hq]
    calc (num : ℚ) < 2 ^ ((num.log2 : Int) + 1) := hnhigh
      _ = 2 ^ ((num.log2 : Int) - den.log2 + 1) * 2 ^ (den.log2 : Int) := by
          rw [← zpow_add₀ (by norm_num)]
          congr 1
          ring
      _ ≤ _ := by gcongr
  · constructor
    · rw [le_div_iff₀ hq]
      calc (2 : ℚ) ^ ((num.log2 : Int) - den.log2 - 1) * den
          ≤ 2 ^ ((num.log2 : Int) - den.log2 - 1) * 2 ^ ((den.log2 : Int) + 1) := by
            gcongr
        _ = 2 ^ (num.log2 : Int) := by
            rw [← zpow_add₀ (by norm_num)]
            congr 1
            ring
        _ ≤ num := hnlow
    · rw [sub_add_cancel]
      exact lt_of_not_ge fun hge => h (hcond.mpr hge)

section OfRatio

variable {num den : Nat}

def lastPlace (num den : Nat) : Int :=
  max (floorLog2 num den - 52) (-1074)

def rounded (num den : Nat) : Nat :=
  roundQuotient (num * twoTo (-lastPlace num den).toNat) (den * twoTo (lastPlace num den).toNat)

theorem rounded_near (num : Nat) {den : Nat} (hd : 0 < den) :
    (rounded num den : ℚ) ≤ num / den / 2 ^ lastPlace num den + 1 / 2 ∧
      (num : ℚ) / den / 2 ^ lastPlace num den - 1 / 2 ≤ rounded num den := by
  have hq : (0 : ℚ) < den := by exact_mod_cast hd
  have hscale : 0 < den * twoTo (lastPlace num den).toNat :=
    Nat.mul_pos hd (Nat.two_pow_pos _)
  have h := roundQuotient_near (num * twoTo (-lastPlace num den).toNat) hscale
  have hpow := pow_toNat (b := 2) (by norm_num) (lastPlace num den)
  have hp : (0 : ℚ) < 2 ^ (-lastPlace num den).toNat := by positivity
  have hz : (0 : ℚ) < 2 ^ lastPlace num den := by positivity
  have heq : ((num * twoTo (-lastPlace num den).toNat : Nat) : ℚ) /
      ((den * twoTo (lastPlace num den).toNat : Nat) : ℚ) =
        num / den / 2 ^ lastPlace num den := by
    rw [Nat.cast_mul, Nat.cast_mul, cast_twoTo, cast_twoTo, hpow]
    field_simp
  rwa [heq] at h

theorem quotient_lt (hn : 0 < num) (hd : 0 < den) :
    (num : ℚ) / den / 2 ^ lastPlace num den < 2 ^ 53 := by
  have hz : (0 : ℚ) < 2 ^ lastPlace num den := by positivity
  have hle : floorLog2 num den + 1 ≤ 53 + lastPlace num den := by
    unfold lastPlace
    omega
  rw [div_lt_iff₀ hz]
  calc (num : ℚ) / den < 2 ^ (floorLog2 num den + 1) := (floorLog2_spec hn hd).2
    _ ≤ 2 ^ (53 + lastPlace num den) := zpow_le_zpow_right₀ (by norm_num) hle
    _ = 2 ^ 53 * 2 ^ lastPlace num den := by
        rw [zpow_add₀ (by norm_num)]
        norm_num

theorem rounded_le (hn : 0 < num) (hd : 0 < den) : rounded num den ≤ twoTo 53 := by
  have hnear := (rounded_near num hd).1
  have hlt := quotient_lt hn hd
  have h : (rounded num den : ℚ) < ((2 ^ 53 + 1 : Nat) : ℚ) := by
    push_cast
    linarith
  exact Nat.lt_succ_iff.mp (by exact_mod_cast h)

theorem ofRatio_pos (negative : Bool) (hn : 0 < num) :
    ofRatio negative num den =
      if rounded num den = twoTo 53 then ofParts negative (twoTo 52) (lastPlace num den + 1)
      else ofParts negative (rounded num den) (lastPlace num den) := by
  have hz : ¬ num = 0 := by omega
  rw [ofRatio, if_neg hz]
  change ofParts negative
    (if decide (rounded num den = twoTo 53) then twoTo 52 else rounded num den)
    (if decide (rounded num den = twoTo 53) then lastPlace num den + 1
      else lastPlace num den) = _
  by_cases hc : rounded num den = twoTo 53
  · simp only [hc, decide_true, if_true]
  · simp only [hc, decide_false, Bool.false_eq_true, if_false]

theorem ofParts_value {negative : Bool} {significand : Nat} {exponent : Int} {y : Binary64}
    (h : ofParts negative significand exponent = some y) :
    y.value = significand * 2 ^ exponent := by
  obtain ⟨hparts, h⟩ := Option.dite_none_right_eq_some.mp h
  obtain rfl := Option.some.inj h
  rfl

theorem ofParts_isSome (negative : Bool) {significand : Nat} {exponent : Int}
    (h : significand < twoTo 53) (h' : exponent ≤ 971) :
    (ofParts negative significand exponent).isSome := by
  rw [ofParts, dif_pos ⟨h, h'⟩]
  rfl

theorem ofParts_self (x : Binary64) : ofParts x.negative x.significand x.exponent = some x :=
  dif_pos ⟨x.significand_lt, x.exponent_le⟩

theorem ofRatio_value {negative : Bool} {y : Binary64} (hn : 0 < num)
    (h : ofRatio negative num den = some y) :
    y.value = rounded num den * 2 ^ lastPlace num den := by
  rw [ofRatio_pos negative hn] at h
  split_ifs at h with hc
  · rw [ofParts_value h, hc, cast_twoTo, cast_twoTo, zpow_add₀ (by norm_num)]
    ring
  · exact ofParts_value h

/-- The least quotient that is rounded beyond the greatest number. -/
def beyond : ℚ :=
  (2 ^ 53 - 1 / 2) * 2 ^ (971 : Int)

theorem ofRatio_isSome (negative : Bool) (hd : 0 < den) (h : (num : ℚ) / den < beyond) :
    (ofRatio negative num den).isSome := by
  obtain rfl | hn := Nat.eq_zero_or_pos num
  · simp [ofRatio]
  · have hlog : floorLog2 num den < 1024 := by
      by_contra hge
      have hlow := (floorLog2_spec hn hd).1
      have hpow : (2 : ℚ) ^ (1024 : Int) ≤ 2 ^ floorLog2 num den :=
        zpow_le_zpow_right₀ (by norm_num) (by omega)
      have htop : beyond < 2 ^ (1024 : Int) := by
        have hz : (2 : ℚ) ^ (1024 : Int) = 2 ^ 53 * 2 ^ (971 : Int) := by
          rw [← zpow_natCast, ← zpow_add₀ (by norm_num)]
          norm_num
        have hpos : (0 : ℚ) < 2 ^ (971 : Int) := by positivity
        rw [beyond, hz]
        exact mul_lt_mul_of_pos_right (by norm_num) hpos
      linarith
    have hplace : lastPlace num den ≤ 971 := by
      unfold lastPlace
      omega
    rw [ofRatio_pos negative hn]
    split_ifs with hc
    · refine ofParts_isSome negative (by decide) (Int.lt_of_not_ge fun hge => ?_)
      have heq : lastPlace num den = 971 := by omega
      have hnear := (rounded_near num hd).1
      have hpos : (0 : ℚ) < 2 ^ (971 : Int) := by positivity
      rw [heq, hc, cast_twoTo] at hnear
      have hlt : (num : ℚ) / den / 2 ^ (971 : Int) < 2 ^ 53 - 1 / 2 := by
        rw [div_lt_iff₀ hpos]
        exact h
      linarith
    · exact ofParts_isSome negative (lt_of_le_of_ne (rounded_le hn hd) hc) hplace

theorem two_zpow_lastPlace_le (hn : 0 < num) (hd : 0 < den) :
    (2 : ℚ) ^ lastPlace num den ≤ num / den / 2 ^ 52 ∨ lastPlace num den = -1074 := by
  obtain h | h : lastPlace num den = floorLog2 num den - 52 ∨ lastPlace num den = -1074 := by
    unfold lastPlace
    omega
  · left
    rw [h, zpow_sub₀ (by norm_num)]
    exact div_le_div_of_nonneg_right (floorLog2_spec hn hd).1 (by positivity)
  · exact .inr h

theorem least_le : (2 : ℚ) ^ (-1074 : Int) ≤ 1 / 2 ^ 52 := by
  have h : (1 : ℚ) / 2 ^ 52 = 2 ^ (-52 : Int) := by
    rw [zpow_neg, one_div]
    rfl
  rw [h]
  exact zpow_le_zpow_right₀ (by norm_num) (by norm_num)

theorem quotient_pos (h : (1 : ℚ) ≤ num / den) : 0 < num ∧ 0 < den := by
  constructor <;> rw [Nat.pos_iff_ne_zero] <;> rintro rfl <;> norm_num at h

theorem ofRatio_value_near {negative : Bool} {y : Binary64} (h : (1 : ℚ) ≤ num / den)
    (hy : ofRatio negative num den = some y) :
    y.value ≤ num / den * (1 + 1 / 2 ^ 53) ∧ (num : ℚ) / den / 2 ≤ y.value := by
  obtain ⟨hn, hd⟩ := quotient_pos h
  have hz : (0 : ℚ) < 2 ^ lastPlace num den := by positivity
  have hplace : (2 : ℚ) ^ lastPlace num den ≤ num / den / 2 ^ 52 := by
    obtain hp | hp := two_zpow_lastPlace_le hn hd
    · exact hp
    · rw [hp]
      exact least_le.trans (div_le_div_of_nonneg_right h (by positivity))
  obtain ⟨hhigh, hlow⟩ := rounded_near num hd
  rw [ofRatio_value hn hy]
  generalize (num : ℚ) / den = v at *
  generalize (2 : ℚ) ^ lastPlace num den = u at *
  generalize (rounded num den : ℚ) = r at *
  have hu : v / u * u = v := div_mul_cancel₀ v hz.ne'
  constructor
  · nlinarith
  · nlinarith

theorem ofRatio_value_le {negative : Bool} {y : Binary64} (hd : 0 < den)
    (hy : ofRatio negative num den = some y) : y.value ≤ 2 * (num / den) + 1 := by
  obtain rfl | hn := Nat.eq_zero_or_pos num
  · rw [ofRatio, if_pos rfl] at hy
    obtain rfl := Option.some.inj hy
    simp [value]
  · have hz : (0 : ℚ) < 2 ^ lastPlace num den := by positivity
    have hv : (0 : ℚ) ≤ num / den := by positivity
    have hplace : (2 : ℚ) ^ lastPlace num den ≤ num / den / 2 ^ 52 + 1 := by
      obtain hp | hp := two_zpow_lastPlace_le hn hd
      · linarith
      · have hone : (1 : ℚ) / 2 ^ 52 ≤ 1 := by norm_num
        have hleast := least_le
        have hq : (0 : ℚ) ≤ num / den / 2 ^ 52 := by positivity
        rw [hp]
        linarith
    have hhigh := (rounded_near num hd).1
    rw [ofRatio_value hn hy]
    generalize (num : ℚ) / den = v at *
    generalize (2 : ℚ) ^ lastPlace num den = u at *
    generalize (rounded num den : ℚ) = r at *
    have hu : v / u * u = v := div_mul_cancel₀ v hz.ne'
    nlinarith

end OfRatio

section Scale

variable {x y : Binary64}

theorem mul_eq (x y : Binary64) : x.mul y =
    ofRatio (x.negative != y.negative) (x.ratio.1 * y.ratio.1) (x.ratio.2 * y.ratio.2) := rfl

theorem div_eq (x y : Binary64) : x.div y =
    ofRatio (x.negative != y.negative) (x.ratio.1 * y.ratio.2) (x.ratio.2 * y.ratio.1) := rfl

theorem mul_isSome (h : x.value * y.value < beyond) : (x.mul y).isSome := by
  rw [mul_eq]
  refine ofRatio_isSome _ (Nat.mul_pos x.ratio_pos y.ratio_pos) ?_
  rw [Nat.cast_mul, Nat.cast_mul, mul_div_mul_comm, ratio_value, ratio_value]
  exact h

theorem significand_pos (h : 0 < x.value) : 0 < x.ratio.1 := by
  rw [← ratio_value] at h
  rw [Nat.pos_iff_ne_zero]
  intro hz
  simp [hz] at h

theorem div_quotient : ((x.ratio.1 * y.ratio.2 : Nat) : ℚ) / ((x.ratio.2 * y.ratio.1 : Nat) : ℚ) =
    x.value / y.value := by
  rw [← ratio_value, ← ratio_value, Nat.cast_mul, Nat.cast_mul, div_div_div_eq]

theorem div_isSome (hy : 0 < y.value) (h : x.value / y.value < beyond) : (x.div y).isSome := by
  rw [div_eq]
  refine ofRatio_isSome _ (Nat.mul_pos x.ratio_pos (significand_pos hy)) ?_
  rw [div_quotient]
  exact h

theorem div_value_le {z : Binary64} (hy : 0 < y.value) (h : x.div y = some z) :
    z.value ≤ 2 * (x.value / y.value) + 1 := by
  rw [div_eq] at h
  rw [← div_quotient]
  exact ofRatio_value_le (Nat.mul_pos x.ratio_pos (significand_pos hy)) h

theorem powerOfTen_isSome {n : Nat} (h : n ≤ 308) : (powerOfTen n).isSome := by
  refine ofRatio_isSome _ (by decide) ?_
  have hpow : (10 : ℚ) ^ n ≤ 10 ^ 308 := pow_le_pow_right₀ (by norm_num) h
  have htop : (10 : ℚ) ^ 308 < beyond := by
    have hnat : 2 * tenTo 308 < 18014398509481983 * twoTo 971 := by decide +kernel
    have hcast := Nat.cast_lt (α := ℚ).mpr hnat
    rw [Nat.cast_mul, Nat.cast_mul, cast_tenTo, cast_twoTo] at hcast
    rw [beyond, zpow_ofNat]
    generalize (2 : ℚ) ^ 971 = top at *
    generalize (10 : ℚ) ^ 308 = power at *
    push_cast at hcast
    linarith
  rw [cast_tenTo, Nat.cast_one, div_one]
  exact hpow.trans_lt htop

theorem powerOfTen_value_near {n : Nat} (h : powerOfTen n = some y) :
    y.value ≤ 10 ^ n * (1 + 1 / 2 ^ 53) ∧ 1 / 2 ≤ y.value := by
  have hone : (1 : ℚ) ≤ (tenTo n : ℚ) / ((1 : Nat) : ℚ) := by
    rw [cast_tenTo, Nat.cast_one, div_one]
    exact one_le_pow₀ (by norm_num)
  obtain ⟨hhigh, hlow⟩ := ofRatio_value_near hone h
  rw [cast_tenTo, Nat.cast_one, div_one] at hhigh hlow hone
  exact ⟨hhigh, by linarith⟩

theorem scaleByTen_isSome_of_nonneg {exponent : Int} (h₀ : 0 ≤ exponent) (h₁ : exponent ≤ 308)
    (h : x.value * (10 ^ exponent.toNat * (1 + 1 / 2 ^ 53)) < beyond) :
    (x.scaleByTen exponent).isSome := by
  obtain ⟨y, hy⟩ := Option.isSome_iff_exists.mp (powerOfTen_isSome (n := exponent.toNat) (by omega))
  have hnear := (powerOfTen_value_near hy).1
  have hmul : (x.mul y).isSome :=
    mul_isSome ((mul_le_mul_of_nonneg_left hnear x.value_nonneg).trans_lt h)
  unfold scaleByTen
  split_ifs
  · rfl
  · omega
  · rw [hy, Option.bind_some]
    exact hmul

theorem div_powerOfTen_isSome {n : Nat} (hn : n ≤ 308) (h : 2 * x.value < beyond) :
    ((powerOfTen n).bind x.div).isSome := by
  obtain ⟨y, hy⟩ := Option.isSome_iff_exists.mp (powerOfTen_isSome hn)
  have hlow := (powerOfTen_value_near hy).2
  have hle : x.value / y.value ≤ 2 * x.value := by
    rw [div_le_iff₀ (by linarith)]
    have hx := x.value_nonneg
    nlinarith
  rw [hy, Option.bind_some]
  exact div_isSome (by linarith) (hle.trans_lt h)

theorem scaleByTen_isSome_of_neg {exponent : Int} (h₀ : exponent < 0)
    (h : 8 * x.value + 2 < beyond) : (x.scaleByTen exponent).isSome := by
  have hx := x.value_nonneg
  unfold scaleByTen
  split_ifs with h₁ h₂ h₃ h₄ h₅
  · rfl
  · omega
  · omega
  · exact div_powerOfTen_isSome (by omega) (by linarith)
  · obtain ⟨y, hy⟩ := Option.isSome_iff_exists.mp
      (div_powerOfTen_isSome (x := x) (n := 308) (by omega) (by linarith))
    obtain ⟨power, hpower, hdiv⟩ := Option.bind_eq_some_iff.mp hy
    have hlow := (powerOfTen_value_near hpower).2
    have hle := div_value_le (by linarith) hdiv
    have hquotient : x.value / power.value ≤ 2 * x.value := by
      rw [div_le_iff₀ (by linarith)]
      nlinarith
    rw [Option.bind_eq_bind, hy, Option.bind_some]
    exact div_powerOfTen_isSome (by omega) (by linarith)
  · rfl

end Scale

end Binary64
end SceneScript
