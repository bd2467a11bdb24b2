import SceneScript.Proofs.Json.RoundTrip
import SceneScript.Proofs.Number.Digits

namespace SceneScript

open Text Binary64

namespace Json

section Grammar

variable {d : Decimal} {t : List Char}

theorem leads_of_prefix {whole : List Char} (ds : List Char) {n : Nat} (hn : 0 < n)
    (hw : whole ≠ []) (hd : ∀ c ∈ whole, c.isDigit) (hp : whole <+: natural n ++ ds) : Leads whole := by
  refine ⟨hw, hd, fun hhead => ?_⟩
  obtain ⟨c, rest, rfl⟩ := List.exists_cons_of_ne_nil hw
  obtain ⟨c', rest', hn'⟩ := List.exists_cons_of_ne_nil (natural_ne_nil n)
  rw [hn', List.cons_append, List.cons_prefix_cons] at hp
  have hne := natural_head_ne_zero hn
  simp only [hn', List.head?_cons, ← hp.1] at hne hhead
  exact absurd hhead hne

theorem isDigit_of_mem_zeros {n : Nat} {c : Char} (h : c ∈ zeros n) : c.isDigit := by
  rw [List.eq_of_mem_replicate h]
  rfl

theorem zeros_length (n : Nat) : (zeros n).length = n :=
  List.length_replicate

theorem leads_whole (hd : 0 < d.exponent → 0 < d.digits) :
    Leads (natural d.digits ++ zeros d.exponent.toNat) := by
  obtain hz | hpos := Nat.eq_zero_or_pos d.digits
  · have hexponent : d.exponent.toNat = 0 := by omega
    rw [hz, hexponent]
    exact leads_natural 0
  · refine leads_of_prefix _ hpos (by simp [natural_ne_nil]) ?_ (List.prefix_refl _)
    intro c hc
    rcases List.mem_append.mp hc with hc | hc
    · exact isDigit_of_mem_natural hc
    · exact isDigit_of_mem_zeros hc

def padded (places n : Nat) : List Char :=
  zeros (places + 1 - (natural n).length) ++ natural n

theorem isDigit_of_mem_padded {places n : Nat} {c : Char} (h : c ∈ padded places n) :
    c.isDigit := by
  rcases List.mem_append.mp h with h | h
  · exact isDigit_of_mem_zeros h
  · exact isDigit_of_mem_natural h

theorem padded_length (places n : Nat) :
    (padded places n).length = max (places + 1) (natural n).length := by
  rw [padded, List.length_append, zeros_length]
  omega

theorem leads_padded {places : Nat} (n : Nat) (hp : 0 < places) :
    Leads ((padded places n).take ((padded places n).length - places)) := by
  obtain hlt | hle := Nat.lt_or_ge places (natural n).length
  · have hz : places + 1 - (natural n).length = 0 := by omega
    have hpos : 0 < n := by
      rw [Nat.pos_iff_ne_zero]
      intro hzero
      have hone : (natural 0).length = 1 := rfl
      rw [hzero] at hlt
      omega
    refine leads_of_prefix [] hpos ?_
      (fun c hc => isDigit_of_mem_padded (List.mem_of_mem_take hc)) ?_
    · rw [← List.length_pos_iff, List.length_take, padded_length]
      omega
    · rw [padded, hz, List.append_nil]
      exact List.take_prefix _ _
  · have hone : (padded places n).length - places = 1 := by
      rw [padded_length]
      omega
    have hsucc : places + 1 - (natural n).length = (places - (natural n).length) + 1 := by omega
    rw [hone, padded, hsucc, zeros, List.replicate_succ]
    exact ⟨by simp, by simp, by simp⟩

theorem positional_eq (hd : 0 < d.exponent → 0 < d.digits) (hp : d.power ≤ 15) :
    ∃ whole fraction, Leads whole ∧ whole.length ≤ 16 ∧ (∀ c ∈ fraction, c.isDigit) ∧
      fraction ≠ [] ∧ d.positional = whole ++ '.' :: fraction := by
  have hlength : 0 < (natural d.digits).length := List.length_pos_iff.mpr (natural_ne_nil _)
  unfold Decimal.power at hp
  by_cases he : 0 ≤ d.exponent
  · refine ⟨_, ['0'], leads_whole hd, ?_, List.forall_mem_singleton.mpr rfl, by simp, ?_⟩
    · rw [List.length_append, zeros_length]
      omega
    · simp [Decimal.positional, he]
  · have hplaces : 0 < (-d.exponent).toNat := by omega
    have hlong := padded_length (-d.exponent).toNat d.digits
    have heq : d.positional =
        (padded (-d.exponent).toNat d.digits).take
            ((padded (-d.exponent).toNat d.digits).length - (-d.exponent).toNat) ++
          '.' :: (padded (-d.exponent).toNat d.digits).drop
            ((padded (-d.exponent).toNat d.digits).length - (-d.exponent).toNat) := by
      simp only [Decimal.positional, if_neg he, padded]
    refine ⟨_, _, leads_padded d.digits hplaces, ?_, ?_, ?_, heq⟩
    · rw [List.length_take]
      omega
    · exact fun c hc => isDigit_of_mem_padded (List.mem_of_mem_drop hc)
    · rw [← List.length_pos_iff, List.length_drop]
      omega

theorem fraction?_point {fraction s : List Char} (hf : ∀ c ∈ fraction, c.isDigit)
    (hn : fraction ≠ []) (hs : ∀ c ∈ s.head?, c.isDigit = false) :
    fraction? ('.' :: (fraction ++ s)) = some (some fraction, s) := by
  obtain ⟨ht, hr⟩ := takeWhile_digits hf hs
  simp [fraction?, ht, hr, hn]

theorem power?_natural {n : Nat} (ht : Stops t) :
    power? ('e' :: '+' :: (natural n ++ t)) = some (some (n : Int), t) ∧
      power? ('e' :: '-' :: (natural n ++ t)) = some (some (-n : Int), t) := by
  have hd : ∀ c ∈ natural n, c.isDigit := fun c hc => isDigit_of_mem_natural hc
  obtain ⟨htake, hdrop⟩ := takeWhile_digits hd ht.not_digit
  have hvalue : Nat.ofDigitChars 10 (natural n) 0 = n := Nat.ofDigitChars_ten_toDigits
  simp [power?, htake, hdrop, natural_ne_nil, hvalue]

def writtenPower (power : Int) : List Char :=
  if 0 ≤ power then '+' :: integer power else integer power

theorem power?_written (power : Int) (ht : Stops t) :
    power? ('e' :: (writtenPower power ++ t)) = some (some power, t) := by
  cases power with
  | ofNat n => exact (power?_natural ht).1
  | negSucc n =>
    have h := (power?_natural (n := n + 1) ht).2
    have heq : Int.negSucc n = -((n + 1 : Nat) : Int) := rfl
    rw [heq]
    exact h

/-- What the reader makes of the text of a decimal number: few digits in front of the point and no
exponent, or one digit in front of the point, the others behind it and the exponent. -/
inductive ReadFrom (d : Decimal) : Numeral → Prop
  | positional (negative : Bool) (whole fraction : List Char) :
      (∀ c ∈ whole, c.isDigit) → whole.length ≤ 16 →
      ReadFrom d ⟨negative, whole, some fraction, none⟩
  | scientific (negative : Bool) (c : Char) (fraction : Option (List Char)) (power : Int) :
      natural d.digits = c :: fraction.getD [] →
      power - (fraction.getD []).length = d.exponent →
      ReadFrom d ⟨negative, [c], fraction, some power⟩

theorem read_positional (negative : Bool) (hd : 0 < d.exponent → 0 < d.digits)
    (hp : d.power ≤ 15) : ∃ k, ReadFrom d k ∧ ∃ c s, d.positional = c :: s ∧ c ≠ '-' ∧
      ∀ t, Stops t → unsignedNumeral? negative (d.positional ++ t) = some (k, t) := by
  obtain ⟨whole, fraction, hw, hl, hf, hn, heq⟩ := positional_eq hd hp
  refine ⟨_, .positional negative whole fraction hw.2.1 hl, ?_⟩
  obtain ⟨c, s, hc⟩ := List.exists_cons_of_ne_nil hw.1
  have hdigit := hw.2.1 c (by simp [hc])
  refine ⟨c, s ++ '.' :: fraction, by rw [heq, hc]; rfl, ?_, fun t ht => ?_⟩
  · rintro rfl
    exact absurd hdigit (by decide)
  · rw [heq, List.append_assoc, List.cons_append,
      unsignedNumeral?_leads negative hw (by simp), fraction?_point hf hn ht.not_digit,
      Option.bind_some, ht.power?]
    rfl

theorem scientific_eq {c : Char} {ds : List Char} (h : natural d.digits = c :: ds) :
    d.scientific = c :: ((if ds.isEmpty then [] else '.' :: ds)
      ++ 'e' :: writtenPower (d.exponent + ds.length)) := by
  have hpower : d.exponent + (natural d.digits).length - 1 = d.exponent + ds.length := by
    rw [h, List.length_cons]
    push_cast
    ring
  rw [← hpower]
  simp only [Decimal.scientific, writtenPower, h]
  cases ds <;> rfl

theorem read_scientific (negative : Bool) : ∃ k, ReadFrom d k ∧
    ∃ c s, d.scientific = c :: s ∧ c ≠ '-' ∧
      ∀ t, Stops t → unsignedNumeral? negative (d.scientific ++ t) = some (k, t) := by
  obtain ⟨c, ds, hds⟩ := List.exists_cons_of_ne_nil (natural_ne_nil d.digits)
  have heq := scientific_eq hds
  have hdigits : ∀ a ∈ c :: ds, a.isDigit := by
    rw [← hds]
    exact fun a ha => isDigit_of_mem_natural ha
  have hc : c ≠ '-' := by
    rintro rfl
    exact absurd (hdigits '-' (by simp)) (by decide)
  have hleads : Leads [c] := ⟨by simp, by simpa using hdigits c (by simp), by simp⟩
  cases ds with
  | nil =>
    refine ⟨_, .scientific negative c none (d.exponent + ([] : List Char).length) hds (by simp),
      c, _, heq, hc, fun t ht => ?_⟩
    have htext : d.scientific ++ t = [c] ++
        'e' :: (writtenPower (d.exponent + ([] : List Char).length) ++ t) := by simp [heq]
    rw [htext, unsignedNumeral?_leads negative hleads (by simp), fraction?, Option.bind_some,
      power?_written _ ht]
    · rfl
    · simp
  | cons a ds =>
    refine ⟨_, .scientific negative c (some (a :: ds)) (d.exponent + (a :: ds).length) hds
      (by simp), c, _, heq, hc, fun t ht => ?_⟩
    have htext : d.scientific ++ t = [c] ++ '.' :: ((a :: ds) ++
        'e' :: (writtenPower (d.exponent + (a :: ds).length) ++ t)) := by simp [heq]
    rw [htext, unsignedNumeral?_leads negative hleads (by simp),
      fraction?_point (fun b hb => hdigits b (by simp [hb])) (by simp) (by simp),
      Option.bind_some, power?_written _ ht]
    rfl

theorem numeral?_of_ne {c : Char} (hc : c ≠ '-') (s : List Char) :
    numeral? (c :: s) = unsignedNumeral? false (c :: s) := by
  rw [numeral?.eq_def]
  split
  · simp_all
  · rfl

theorem read_text (x : Binary64) : ∃ k, ReadFrom x.shortest k ∧
    ∀ t, Stops t → numeral? (x.text ++ t) = some (k, t) := by
  have hbody (negative : Bool) : ∃ k, ReadFrom x.shortest k ∧
      ∃ c s, x.shortest.body = c :: s ∧ c ≠ '-' ∧
        ∀ t, Stops t → unsignedNumeral? negative (x.shortest.body ++ t) = some (k, t) := by
    unfold Decimal.body
    split
    · rename_i hp
      have hpower : x.shortest.power ≤ 15 := by
        simp only [Bool.and_eq_true, decide_eq_true_eq] at hp
        exact hp.2
      have hlength : 0 < (natural x.shortest.digits).length :=
        List.length_pos_iff.mpr (natural_ne_nil _)
      refine read_positional negative (fun he => shortest_digits_pos he ?_) hpower
      unfold Decimal.power at hpower
      omega
    · exact read_scientific negative
  rw [text_eq]
  split
  · obtain ⟨k, hk, c, s, -, -, hread⟩ := hbody true
    exact ⟨k, hk, hread⟩
  · obtain ⟨k, hk, c, s, heq, hc, hread⟩ := hbody false
    refine ⟨k, hk, fun t ht => ?_⟩
    rw [← hread t ht, heq, List.cons_append, numeral?_of_ne hc]

end Grammar

section Value

theorem le_ofDigitChars (ds : List Char) (n : Nat) :
    n * 10 ^ ds.length ≤ Nat.ofDigitChars 10 ds n := by
  rw [Nat.ofDigitChars_eq_ofDigitChars_zero, Nat.mul_comm]
  exact Nat.le_add_right _ _

theorem ofDigitChars_lt {ds : List Char} (h : ∀ c ∈ ds, c.isDigit) (n : Nat) :
    Nat.ofDigitChars 10 ds n < (n + 1) * 10 ^ ds.length := by
  induction ds generalizing n with
  | nil => simp
  | cons c ds ih =>
    have hc := h c (by simp)
    simp only [Char.isDigit, Bool.and_eq_true, decide_eq_true_eq] at hc
    have hdigit : c.toNat ≤ 57 := UInt32.le_iff_toNat_le.mp hc.2
    have hlt := ih (fun a ha => h a (by simp [ha])) (10 * n + (c.toNat - '0'.toNat))
    have hzero : '0'.toNat = 48 := rfl
    rw [Nat.ofDigitChars_cons, List.length_cons, Nat.pow_succ]
    calc _ < (10 * n + (c.toNat - '0'.toNat) + 1) * 10 ^ ds.length := hlt
      _ ≤ (10 * (n + 1)) * 10 ^ ds.length := Nat.mul_le_mul_right _ (by omega)
      _ = _ := by ring

theorem accumulate_spec {n m : Nat} {ds rest : List Char} (h : accumulate n ds = (m, rest))
    (hn : n ≤ greatestSignificand) :
    m ≤ greatestSignificand ∧ rest.length ≤ ds.length ∧
      m * 10 ^ rest.length ≤ Nat.ofDigitChars 10 ds n := by
  induction ds generalizing n with
  | nil =>
    obtain ⟨rfl, rfl⟩ := Prod.mk.inj h
    exact ⟨hn, Nat.le_refl _, by simp⟩
  | cons c ds ih =>
    have hnext : 10 * n + (c.toNat - '0'.toNat) = n * 10 + (c.toNat - 48) := by
      rw [Nat.mul_comm]
      rfl
    rw [accumulate] at h
    split_ifs at h with hg
    · obtain ⟨rfl, rfl⟩ := Prod.mk.inj h
      exact ⟨hn, Nat.le_refl _, le_ofDigitChars _ _⟩
    · obtain ⟨hm, hlength, hle⟩ := ih h (by omega)
      rw [Nat.ofDigitChars_cons, hnext]
      exact ⟨hm, by rw [List.length_cons]; omega, hle⟩

theorem accumulate_all {n : Nat} {ds : List Char}
    (h : Nat.ofDigitChars 10 ds n ≤ greatestSignificand) :
    accumulate n ds = (Nat.ofDigitChars 10 ds n, []) := by
  induction ds generalizing n with
  | nil => rfl
  | cons c ds ih =>
    have hnext : 10 * n + (c.toNat - '0'.toNat) = n * 10 + (c.toNat - 48) := by
      rw [Nat.mul_comm]
      rfl
    rw [Nat.ofDigitChars_cons, hnext] at h ⊢
    have hle := (Nat.le_mul_of_pos_right _ (Nat.pow_pos (by decide))).trans
      ((le_ofDigitChars ds (n * 10 + (c.toNat - 48))).trans h)
    rw [accumulate, if_neg (by omega), ih h]

theorem ofDigitChars_le_greatest {ds : List Char} (h : ∀ c ∈ ds, c.isDigit)
    (hl : ds.length ≤ 16) : Nat.ofDigitChars 10 ds 0 ≤ greatestSignificand := by
  have hlt := ofDigitChars_lt h 0
  have hpow : 10 ^ ds.length ≤ 10 ^ 16 := Nat.pow_le_pow_right (by decide) hl
  have hgreatest : 10 ^ 16 ≤ greatestSignificand := by decide
  omega

theorem two_pow_lt_beyond : (2 : ℚ) ^ 70 < beyond := by
  have hle : (2 : ℚ) ^ (20 : Int) ≤ 2 ^ (971 : Int) :=
    zpow_le_zpow_right₀ (by norm_num) (by norm_num)
  rw [beyond]
  generalize (2 : ℚ) ^ (971 : Int) = top at *
  norm_num at hle ⊢
  linarith

theorem base_spec (negative : Bool) {n : Nat} (hn : n ≤ greatestSignificand) :
    ∃ base, ofRatio negative n 1 = some base ∧ base.value ≤ n * (1 + 1 / 2 ^ 53) ∧
      base.value ≤ 2 ^ 65 := by
  have hcast : (n : ℚ) < 2 ^ 64 := by
    have hlt : n < 2 ^ 64 := by
      have hg : greatestSignificand < 2 ^ 64 := by decide
      omega
    exact_mod_cast hlt
  have hsome : (ofRatio negative n 1).isSome := by
    refine ofRatio_isSome negative (by decide) ?_
    rw [Nat.cast_one, div_one]
    have h70 := two_pow_lt_beyond
    linarith
  obtain ⟨base, hbase⟩ := Option.isSome_iff_exists.mp hsome
  have hvalue : base.value ≤ n * (1 + 1 / 2 ^ 53) := by
    obtain rfl | hpos := Nat.eq_zero_or_pos n
    · rw [ofRatio, if_pos rfl] at hbase
      obtain rfl := Option.some.inj hbase
      simp [value]
    · have hone : (1 : ℚ) ≤ (n : ℚ) / ((1 : Nat) : ℚ) := by
        rw [Nat.cast_one, div_one]
        exact_mod_cast hpos
      have hnear := (ofRatio_value_near hone hbase).1
      rwa [Nat.cast_one, div_one] at hnear
  exact ⟨base, hbase, hvalue, by linarith⟩

theorem scale_isSome_of_nonpos {x : Binary64} {e : Int} (he : e ≤ 0) (hx : x.value ≤ 2 ^ 65) :
    (x.scaleByTen e).isSome := by
  have h70 := two_pow_lt_beyond
  obtain rfl | hlt : e = 0 ∨ e < 0 := by omega
  · refine scaleByTen_isSome_of_nonneg (Int.le_refl _) (by decide) ?_
    rw [Int.toNat_zero, pow_zero]
    linarith
  · exact scaleByTen_isSome_of_neg hlt (by linarith)

theorem scale_isSome_of_value {x : Binary64} {n : Nat} {e : Int} {v : ℚ} (he : 0 ≤ e)
    (hx : x.value ≤ n * (1 + 1 / 2 ^ 53)) (hn : 0 < n) (hv : (n : ℚ) * 10 ^ e ≤ v)
    (h : v * ((1 + 1 / 2 ^ 53) * (1 + 1 / 2 ^ 53)) < beyond) : (x.scaleByTen e).isSome := by
  have hpow : (10 : ℚ) ^ e = 10 ^ e.toNat := by
    rw [← zpow_natCast, Int.toNat_of_nonneg he]
  rw [hpow] at hv
  have hpos : (0 : ℚ) < 10 ^ e.toNat := by positivity
  have hone : (1 : ℚ) ≤ n := by exact_mod_cast hn
  have hbound : e.toNat ≤ 308 := by
    by_contra hlt
    have hle : (10 : ℚ) ^ 309 ≤ 10 ^ e.toNat := pow_le_pow_right₀ (by norm_num) (by omega)
    have htop : beyond < 10 ^ 309 := by
      have hnat : 9007199254740992 * twoTo 971 < tenTo 309 := by decide +kernel
      have hcast := Nat.cast_lt (α := ℚ).mpr hnat
      rw [Nat.cast_mul, cast_tenTo, cast_twoTo] at hcast
      have htwo : (0 : ℚ) < 2 ^ 971 := by positivity
      rw [beyond, zpow_ofNat]
      generalize (2 : ℚ) ^ 971 = top at *
      generalize (10 : ℚ) ^ 309 = power at *
      push_cast at hcast
      linarith
    have hpower : (10 : ℚ) ^ e.toNat ≤ v := (le_mul_of_one_le_left hpos.le hone).trans hv
    have hv₀ : 0 ≤ v := hpos.le.trans hpower
    have hscaled : v ≤ v * ((1 + 1 / 2 ^ 53) * (1 + 1 / 2 ^ 53)) :=
      le_mul_of_one_le_right hv₀ (by norm_num)
    exact absurd (htop.trans_le (hle.trans (hpower.trans (hscaled.trans h.le)))) (lt_irrefl _)
  refine scaleByTen_isSome_of_nonneg he (by omega) (lt_of_le_of_lt ?_ h)
  calc x.value * (10 ^ e.toNat * (1 + 1 / 2 ^ 53))
      ≤ (n : ℚ) * (1 + 1 / 2 ^ 53) * (10 ^ e.toNat * (1 + 1 / 2 ^ 53)) := by gcongr
    _ = (n : ℚ) * 10 ^ e.toNat * ((1 + 1 / 2 ^ 53) * (1 + 1 / 2 ^ 53)) := by ring
    _ ≤ v * ((1 + 1 / 2 ^ 53) * (1 + 1 / 2 ^ 53)) := by gcongr

theorem significand_bound {x : Binary64}
    (hsmall : x.exponent < 971 ∨ x.significand + 3 ≤ twoTo 53) :
    ((x.significand : ℚ) + 1 / 2) * 2 ^ x.exponent ≤ (2 ^ 53 - 5 / 2) * 2 ^ (971 : Int) := by
  have hm : (x.significand : ℚ) + 1 ≤ 2 ^ 53 := by
    have h := Nat.cast_le (α := ℚ).mpr (Nat.succ_le_of_lt x.significand_lt)
    rwa [cast_twoTo, Nat.cast_succ] at h
  have hpos : (0 : ℚ) ≤ 2 ^ x.exponent := by positivity
  rcases hsmall with he | hsmall
  · have hle : (2 : ℚ) ^ x.exponent ≤ 2 ^ (970 : Int) :=
      zpow_le_zpow_right₀ (by norm_num) (by omega)
    have hhalf : (2 : ℚ) ^ (971 : Int) = 2 ^ (970 : Int) * 2 :=
      zpow_add_one₀ (by norm_num) 970
    rw [hhalf]
    clear hhalf
    generalize (2 : ℚ) ^ (970 : Int) = half at *
    generalize (2 : ℚ) ^ x.exponent = place at *
    calc ((x.significand : ℚ) + 1 / 2) * place ≤ 2 ^ 53 * place :=
          mul_le_mul_of_nonneg_right (by linarith) hpos
      _ ≤ 2 ^ 53 * half := mul_le_mul_of_nonneg_left hle (by norm_num)
      _ ≤ (2 ^ 53 - 5 / 2) * (half * 2) := by linarith
  · have hle : (2 : ℚ) ^ x.exponent ≤ 2 ^ (971 : Int) :=
      zpow_le_zpow_right₀ (by norm_num) x.exponent_le
    have hm' : (x.significand : ℚ) + 3 ≤ 2 ^ 53 := by
      have h := Nat.cast_le (α := ℚ).mpr hsmall
      rw [cast_twoTo] at h
      push_cast at h
      exact h
    generalize (2 : ℚ) ^ (971 : Int) = top at *
    generalize (2 : ℚ) ^ x.exponent = place at *
    calc ((x.significand : ℚ) + 1 / 2) * place ≤ (2 ^ 53 - 5 / 2) * place :=
          mul_le_mul_of_nonneg_right (by linarith) hpos
      _ ≤ (2 ^ 53 - 5 / 2) * top := mul_le_mul_of_nonneg_left hle (by norm_num)

theorem scaled_bound_lt_beyond :
    (2 ^ 53 - 5 / 2 : ℚ) * 2 ^ (971 : Int) * ((1 + 1 / 2 ^ 53) * (1 + 1 / 2 ^ 53)) < beyond := by
  have hpos : (0 : ℚ) < 2 ^ (971 : Int) := by positivity
  rw [beyond, mul_right_comm]
  exact mul_lt_mul_of_pos_right (by norm_num) hpos

theorem real?_eq {k : Numeral} {n : Nat} {unread : List Char}
    (hw : Nat.ofDigitChars 10 k.whole 0 ≤ greatestSignificand)
    (hf : accumulate (Nat.ofDigitChars 10 k.whole 0) (k.fraction.getD []) = (n, unread)) :
    k.real? = (ofRatio k.negative n 1).bind fun base =>
      base.scaleByTen
        (0 - (((k.fraction.getD []).length - unread.length : Nat) : Int) + k.exponent.getD 0) := by
  simp only [Numeral.real?, accumulate_all hw, hf, List.length_nil]
  rfl

theorem significand_le_value {d : Decimal} {c : Char} {fraction unread : List Char} {power : Int}
    {n : Nat} (hdigits : natural d.digits = c :: fraction)
    (hpower : power - fraction.length = d.exponent) (hlength : unread.length ≤ fraction.length)
    (hle : n * 10 ^ unread.length ≤ Nat.ofDigitChars 10 fraction (Nat.ofDigitChars 10 [c] 0)) :
    (n : ℚ) * 10 ^ (0 - ((fraction.length - unread.length : Nat) : Int) + power) ≤ d.value := by
  have hten : (0 : ℚ) < 10 ^ d.exponent := by positivity
  have hexponent : 0 - ((fraction.length - unread.length : Nat) : Int) + power =
      unread.length + d.exponent := by omega
  have hall : Nat.ofDigitChars 10 (c :: fraction) 0 = d.digits := by
    rw [← hdigits]
    exact Nat.ofDigitChars_ten_toDigits
  rw [← Nat.ofDigitChars_append, List.singleton_append, hall] at hle
  have hcast := Nat.cast_le (α := ℚ).mpr hle
  rw [Nat.cast_mul, Nat.cast_pow, Nat.cast_ofNat] at hcast
  rw [hexponent, zpow_add₀ (by norm_num), zpow_natCast, ← mul_assoc]
  exact mul_le_mul_of_nonneg_right hcast hten.le

theorem scale_isSome_of_zero {x : Binary64} (h : x.significand = 0) (e : Int) :
    (x.scaleByTen e).isSome := by
  simp [scaleByTen, h]

theorem ReadFrom.whole_le {d : Decimal} {k : Numeral} (hk : ReadFrom d k) :
    Nat.ofDigitChars 10 k.whole 0 ≤ greatestSignificand := by
  cases hk with
  | positional _ _ _ hd hl => exact ofDigitChars_le_greatest hd hl
  | scientific _ _ _ _ hdigits _ =>
    refine ofDigitChars_le_greatest (fun c hc => ?_) (by simp)
    rw [List.mem_singleton] at hc
    exact isDigit_of_mem_natural (n := d.digits) (by rw [hdigits, hc]; simp)

theorem real?_isSome {x : Binary64}
    (hsmall : x.exponent < 971 ∨ x.significand + 3 ≤ twoTo 53) {k : Numeral}
    (hk : ReadFrom x.shortest k) : k.real?.isSome := by
  have hwhole := hk.whole_le
  cases haccumulate : accumulate (Nat.ofDigitChars 10 k.whole 0) (k.fraction.getD []) with
  | mk n unread =>
    obtain ⟨hn, hlength, hle⟩ := accumulate_spec haccumulate hwhole
    obtain ⟨base, hbase, hvalue, hbound⟩ := base_spec k.negative hn
    rw [real?_eq hwhole haccumulate, hbase, Option.bind_some]
    cases hk with
    | positional negative whole fraction hd hl =>
      exact scale_isSome_of_nonpos (by simp only [Option.getD_none]; omega) hbound
    | scientific negative c fraction power hdigits hpower =>
      simp only [Option.getD_some] at hle hlength ⊢
      have hscaled := significand_le_value hdigits hpower hlength hle
      generalize 0 - (((fraction.getD []).length - unread.length : Nat) : Int) + power = e at *
      obtain he | he := Int.le_total e 0
      · exact scale_isSome_of_nonpos he hbound
      · obtain rfl | hpos := Nat.eq_zero_or_pos n
        · rw [ofRatio, if_pos rfl] at hbase
          obtain rfl := Option.some.inj hbase
          exact scale_isSome_of_zero (zero_significand _) e
        · refine scale_isSome_of_value he hvalue hpos hscaled ?_
          exact lt_of_le_of_lt (mul_le_mul_of_nonneg_right ((shortest_value_le x).trans
            (significand_bound hsmall)) (by norm_num)) scaled_bound_lt_beyond

theorem greatest_read : ∀ negative : Bool, ∀ m ∈ [twoTo 53 - 1, twoTo 53 - 2],
    ((ofParts negative m 971).bind fun x => (numeral? x.text).bind fun p => p.1.value?).isSome := by
  decide +kernel

theorem ReadFrom.value?_eq {d : Decimal} {k : Numeral} (hk : ReadFrom d k) :
    k.value? = k.real?.map .real := by
  cases hk <;> simp [Numeral.value?]

theorem real_legible (x : Binary64) : JsonNumber.Legible (.real x) := by
  obtain ⟨k, hk, hread⟩ := read_text x
  have hvalue : k.value?.isSome := by
    by_cases hsmall : x.exponent < 971 ∨ x.significand + 3 ≤ twoTo 53
    · rw [hk.value?_eq, Option.isSome_map]
      exact real?_isSome hsmall hk
    · -- rounding up may overflow for the two greatest numbers, which are evaluated instead
      have he : x.exponent = 971 := by
        have hle := x.exponent_le
        omega
      have hm : x.significand ∈ [twoTo 53 - 1, twoTo 53 - 2] := by
        have hlt := x.significand_lt
        have htwo : twoTo 53 = 9007199254740992 := by decide
        simp only [List.mem_cons, List.not_mem_nil, or_false]
        omega
      have hgreatest := greatest_read x.negative x.significand hm
      have hnil := hread [] (.inl rfl)
      rw [List.append_nil] at hnil
      rw [← he, ofParts_self, Option.bind_some, hnil] at hgreatest
      exact hgreatest
  obtain ⟨m, hm⟩ := Option.isSome_iff_exists.mp hvalue
  exact ⟨m, fun t ht => ⟨k, hread t ht, hm⟩⟩

end Value

end Json
end SceneScript
