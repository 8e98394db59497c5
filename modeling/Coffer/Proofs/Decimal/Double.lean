import Coffer.Decimal.Double
import Mathlib.Algebra.Order.Field.Power
import Mathlib.Algebra.Order.Field.Rat
import Mathlib.Data.Nat.Cast.Order.Field
import Mathlib.Tactic.Linarith
import Mathlib.Tactic.NormNum
import Mathlib.Tactic.Ring

namespace Coffer.Double

-- Ratios and powers

theorem pow_toNat {p : Int} (hp : 0 ≤ p) (b : Nat) : ((Nat.pow b p.toNat : Nat) : ℚ) = (b : ℚ) ^ p := by
  conv_rhs => rw [← Int.toNat_of_nonneg hp]
  rw [zpow_natCast]
  exact Nat.cast_pow b p.toNat

theorem scaleRatio_pos (num : Nat) {den : Nat} (hden : 0 < den) (shift : Int) :
    0 < (scaleRatio num den shift).2 := by
  unfold scaleRatio
  split
  · exact Nat.mul_pos hden (Nat.pow_pos (by decide))
  · exact hden

theorem scaleRatio_value (num den : Nat) (shift : Int) :
    ((scaleRatio num den shift).1 : ℚ) / (scaleRatio num den shift).2 =
      num / den * 2 ^ (-shift) := by
  unfold scaleRatio
  split
  · have hpow := pow_toNat ‹0 ≤ shift› 2
    dsimp only
    rw [Nat.cast_mul, hpow, zpow_neg, Nat.cast_ofNat, div_mul_eq_div_div, div_eq_mul_inv _ ((2 : ℚ) ^ shift)]
  · have hpow := pow_toNat (p := -shift) (by omega) 2
    dsimp only
    rw [Nat.cast_mul, hpow, Nat.cast_ofNat]
    ring

-- What is not too large is finite

theorem log2_bounds {n : Nat} (hn : n ≠ 0) :
    (2 : ℚ) ^ (Nat.log2 n : Int) ≤ n ∧ (n : ℚ) < 2 ^ ((Nat.log2 n : Int) + 1) := by
  constructor
  · rw [zpow_natCast]
    exact_mod_cast Nat.log2_self_le hn
  · have hlt : n < 2 ^ (Nat.log2 n + 1) := Nat.lt_log2_self
    exact_mod_cast hlt

-- The bits of two numbers tell their ratio up to a factor of two either way.
theorem log2_ratio_bounds {num den : Nat} (hnum : num ≠ 0) (hden : den ≠ 0) {guess : Int}
    (hguess : guess = Nat.log2 num - Nat.log2 den) :
    (2 : ℚ) ^ (guess - 1) ≤ num / den ∧ (num : ℚ) / den < 2 ^ (guess + 1) := by
  obtain ⟨hnlow, hnhigh⟩ := log2_bounds hnum
  obtain ⟨hdlow, hdhigh⟩ := log2_bounds hden
  have hdpos : (0 : ℚ) < den := by exact_mod_cast Nat.pos_of_ne_zero hden
  have htwo : (2 : ℚ) ≠ 0 := by norm_num
  constructor
  · rw [le_div_iff₀ hdpos]
    calc (2 : ℚ) ^ (guess - 1) * den ≤ 2 ^ (guess - 1) * 2 ^ ((Nat.log2 den : Int) + 1) := by gcongr
      _ = 2 ^ (Nat.log2 num : Int) := by
        rw [← zpow_add₀ htwo]
        congr 1
        omega
      _ ≤ num := hnlow
  · rw [div_lt_iff₀ hdpos]
    calc (num : ℚ) < 2 ^ ((Nat.log2 num : Int) + 1) := hnhigh
      _ = 2 ^ (guess + 1) * 2 ^ (Nat.log2 den : Int) := by
        rw [← zpow_add₀ htwo]
        congr 1
        omega
      _ ≤ 2 ^ (guess + 1) * den := by gcongr

theorem leadingBit_bounds {num den : Nat} (hnum : num ≠ 0) (hden : den ≠ 0) :
    (2 : ℚ) ^ leadingBit num den ≤ num / den ∧ (num : ℚ) / den < 2 ^ (leadingBit num den + 1) := by
  let guess : Int := Nat.log2 num - Nat.log2 den
  obtain ⟨hlow, hhigh⟩ := log2_ratio_bounds hnum hden (rfl : guess = _)
  have hpos : (0 : ℚ) < (scaleRatio num den guess).2 := by
    exact_mod_cast scaleRatio_pos num (Nat.pos_of_ne_zero hden) guess
  have hpow : (0 : ℚ) < 2 ^ guess := by positivity
  have hsplit : (num : ℚ) / den =
      (scaleRatio num den guess).1 / (scaleRatio num den guess).2 * 2 ^ guess := by
    rw [scaleRatio_value, mul_assoc, ← zpow_add₀ (by norm_num), neg_add_cancel, zpow_zero, mul_one]
  unfold leadingBit
  dsimp only
  split
  · have hless : ((scaleRatio num den guess).1 : ℚ) < (scaleRatio num den guess).2 := by
      exact_mod_cast ‹_ < _›
    refine ⟨hlow, ?_⟩
    rw [sub_add_cancel, hsplit]
    exact mul_lt_of_lt_one_left hpow ((div_lt_one hpos).mpr hless)
  · have hmore : ((scaleRatio num den guess).2 : ℚ) ≤ (scaleRatio num den guess).1 := by
      exact_mod_cast Nat.le_of_not_lt ‹_›
    refine ⟨?_, hhigh⟩
    rw [hsplit]
    exact le_mul_of_one_le_left hpow.le ((one_le_div hpos).mpr hmore)

theorem roundQuotient_le {num den bound : Nat} (h : 2 * num < (2 * bound + 1) * den) :
    roundQuotient num den ≤ bound := by
  have hdiv : 2 * num = 2 * (num / den) * den + 2 * (num % den) := by
    have hsplit := Nat.div_add_mod num den
    rw [Nat.mul_assoc, Nat.mul_comm (num / den) den]
    omega
  have hlow : num / den ≤ bound := by
    have hless : 2 * (num / den) * den < (2 * bound + 1) * den := by omega
    have := Nat.lt_of_mul_lt_mul_right hless
    omega
  have hhigh (hhalf : den ≤ 2 * (num % den)) : num / den + 1 ≤ bound := by
    have hless : (2 * (num / den) + 1) * den < (2 * bound + 1) * den := by
      rw [Nat.add_mul, Nat.one_mul]
      omega
    have := Nat.lt_of_mul_lt_mul_right hless
    omega
  unfold roundQuotient
  dsimp only
  split
  · exact hlow
  · split
    · exact hhigh (by omega)
    · split
      · exact hlow
      · exact hhigh (by omega)

theorem isInfinite_of_biased {x : Double} (h : x.bits.toNat / hiddenBit % 2048 ≠ 2047) :
    x.isInfinite = false := by
  unfold isInfinite shape
  simp only [h, if_false]
  split
  · split at * <;> contradiction
  · rfl

theorem isInfinite_ofMagnitude (negative : Bool) {n : Nat} (h : n < 2047 * hiddenBit) :
    (ofMagnitude negative n).isInfinite = false := by
  have hbits : (UInt64.ofNat (if negative then signBit + n else n)).toNat =
      if negative then signBit + n else n := by
    rw [UInt64.toNat_ofNat']
    apply Nat.mod_eq_of_lt
    unfold signBit
    unfold hiddenBit at h
    split <;> omega
  apply isInfinite_of_biased
  rw [ofMagnitude, hbits]
  unfold signBit
  unfold hiddenBit at h ⊢
  split <;> omega

-- Half a unit of the last place above the largest double, from where on rounding goes to infinity.
def ceiling : ℚ := (2 ^ 54 - 1) * 2 ^ (970 : Int)

theorem ceiling_lt : ceiling < 2 ^ (1024 : Int) := by
  have hpow : (2 : ℚ) ^ (1024 : Int) = 2 ^ 54 * 2 ^ (970 : Int) := by
    rw [← zpow_natCast, ← zpow_add₀ (by norm_num)]
    rfl
  rw [hpow, ceiling]
  gcongr
  norm_num

theorem ceiling_lt_ten : ceiling < 10 ^ (400 : Int) := by
  calc ceiling < 2 ^ (1024 : Int) := ceiling_lt
    _ ≤ 2 ^ (3 * 400 : Int) := zpow_le_zpow_right₀ (by norm_num) (by norm_num)
    _ = (2 ^ (3 : Int)) ^ (400 : Int) := zpow_mul _ _ _
    _ ≤ 10 ^ (400 : Int) := zpow_le_zpow_left₀ (by norm_num) (by norm_num) (by norm_num)

theorem leadingBit_lt {num den : Nat} (hnum : num ≠ 0) (hden : den ≠ 0)
    (h : (num : ℚ) / den < ceiling) : leadingBit num den < 1024 := by
  have hlow := (leadingBit_bounds hnum hden).1
  by_contra hnot
  have hpow : (2 : ℚ) ^ (1024 : Int) ≤ 2 ^ leadingBit num den :=
    zpow_le_zpow_right₀ (by norm_num) (by omega)
  linarith [ceiling_lt]

theorem roundQuotient_scaleRatio_le {num den bound : Nat} (hden : den ≠ 0) (shift : Int)
    (h : (num : ℚ) / den * 2 ^ (-shift) < (2 * bound + 1) / 2) :
    roundQuotient (scaleRatio num den shift).1 (scaleRatio num den shift).2 ≤ bound := by
  have hpos : (0 : ℚ) < (scaleRatio num den shift).2 := by
    exact_mod_cast scaleRatio_pos num (Nat.pos_of_ne_zero hden) shift
  rw [← scaleRatio_value, div_lt_div_iff₀ hpos two_pos] at h
  apply roundQuotient_le
  have hless : (2 : ℚ) * (scaleRatio num den shift).1 <
      (2 * bound + 1) * (scaleRatio num den shift).2 := by linarith
  exact_mod_cast hless

-- A ratio below the ceiling has no more units of the last place than a double can hold, however it
-- is rounded. Only at the largest exponent may rounding up not reach the next power of two.
theorem magnitude_lt {num den : Nat} (hden : den ≠ 0) (h : (num : ℚ) / den < ceiling) {lead exponent : Int}
    (hlead : (num : ℚ) / den < 2 ^ (lead + 1)) (hlow : lead - 52 ≤ exponent)
    (hexponent : -1074 ≤ exponent ∧ exponent ≤ 971) :
    (exponent + 1074).toNat * hiddenBit +
      roundQuotient (scaleRatio num den exponent).1 (scaleRatio num den exponent).2 <
        2047 * hiddenBit := by
  have htwo : (2 : ℚ) ≠ 0 := by norm_num
  by_cases htop : exponent = 971
  · have hquotient : (num : ℚ) / den * 2 ^ (-exponent) < (2 * (2 ^ 53 - 1 : Nat) + 1) / 2 := by
      have hceiling : (num : ℚ) / den * 2 ^ (-971 : Int) < ceiling * 2 ^ (-971 : Int) :=
        mul_lt_mul_of_pos_right h (by positivity)
      rw [htop]
      refine hceiling.trans_le (le_of_eq ?_)
      rw [ceiling, mul_assoc, ← zpow_add₀ htwo]
      norm_num
    have hbound := roundQuotient_scaleRatio_le hden exponent hquotient
    unfold hiddenBit
    omega
  · have hquotient : (num : ℚ) / den * 2 ^ (-exponent) < (2 * (2 ^ 53 : Nat) + 1) / 2 := by
      have hpow : (num : ℚ) / den * 2 ^ (-exponent) < 2 ^ (53 : Int) := by
        calc (num : ℚ) / den * 2 ^ (-exponent) < 2 ^ (lead + 1) * 2 ^ (-exponent) := by gcongr
          _ = 2 ^ (lead + 1 + -exponent) := (zpow_add₀ htwo _ _).symm
          _ ≤ 2 ^ (53 : Int) := zpow_le_zpow_right₀ (by norm_num) (by omega)
      refine hpow.trans ?_
      norm_num
    have hbound := roundQuotient_scaleRatio_le hden exponent hquotient
    unfold hiddenBit
    omega

theorem isInfinite_ofRatio (negative : Bool) {num den : Nat} (hden : den ≠ 0)
    (h : (num : ℚ) / den < ceiling) : (ofRatio negative num den).isInfinite = false := by
  unfold ofRatio
  split
  · exact isInfinite_ofMagnitude negative (by decide)
  have hhigh := (leadingBit_bounds ‹num ≠ 0› hden).2
  have hlead := leadingBit_lt ‹num ≠ 0› hden h
  let exponent : Int := max (leadingBit num den - 52) (-1074)
  have hlow : leadingBit num den - 52 ≤ exponent := by omega
  have hmagnitude := magnitude_lt hden h hhigh hlow (by omega)
  dsimp only
  rw [if_neg (not_le.mpr hmagnitude)]
  exact isInfinite_ofMagnitude negative hmagnitude

theorem pow_countDigits_le {n : Nat} (hn : n ≠ 0) :
    0 < countDigits n ∧ 10 ^ (countDigits n - 1) ≤ n := by
  unfold countDigits
  induction n using Nat.strongRecOn with
  | ind n ih =>
      by_cases hlt : n < 10
      · rw [Nat.toDigits_of_lt_base hlt]
        exact ⟨Nat.one_pos, Nat.pos_of_ne_zero hn⟩
      · obtain ⟨hpos, hle⟩ := ih (n / 10) (by omega) (by omega)
        rw [Nat.toDigits_of_base_le (by decide) (by omega), List.length_append, List.length_singleton,
          Nat.add_sub_cancel]
        refine ⟨Nat.succ_pos _, ?_⟩
        have hsplit : (Nat.toDigits 10 (n / 10)).length =
            (Nat.toDigits 10 (n / 10)).length - 1 + 1 := by omega
        rw [hsplit, Nat.pow_succ]
        omega

theorem isInfinite_ofDecimal (negative : Bool) (digits : Nat) (exponent : Int)
    (h : (digits : ℚ) * 10 ^ exponent < ceiling) :
    (ofDecimal negative digits exponent).isInfinite = false := by
  unfold ofDecimal
  dsimp only
  split
  · exact isInfinite_ofMagnitude negative (by decide)
  obtain ⟨hdigits, -⟩ := not_or.mp ‹¬_›
  have horder : ¬400 < exponent + countDigits digits := by
    intro hlarge
    obtain ⟨hpos, hlow⟩ := pow_countDigits_le hdigits
    have hlow : (10 : ℚ) ^ ((countDigits digits : Int) - 1) ≤ digits := by
      have hcast : ((countDigits digits - 1 : Nat) : Int) = (countDigits digits : Int) - 1 := by omega
      rw [← hcast, zpow_natCast]
      exact_mod_cast hlow
    have hvalue : (10 : ℚ) ^ (400 : Int) ≤ digits * 10 ^ exponent := by
      calc (10 : ℚ) ^ (400 : Int) ≤ 10 ^ ((countDigits digits : Int) - 1 + exponent) :=
            zpow_le_zpow_right₀ (by norm_num) (by omega)
        _ = 10 ^ ((countDigits digits : Int) - 1) * 10 ^ exponent := zpow_add₀ (by norm_num) _ _
        _ ≤ digits * 10 ^ exponent := by gcongr
    linarith [ceiling_lt_ten]
  rw [if_neg horder]
  split
  · apply isInfinite_ofRatio negative one_ne_zero
    have hpow := pow_toNat ‹0 ≤ exponent› 10
    rw [Nat.cast_mul, hpow, Nat.cast_one, div_one]
    exact h
  · have hpow := pow_toNat (p := -exponent) (by omega) 10
    have hten : Nat.pow 10 (-exponent).toNat ≠ 0 := Nat.pos_iff_ne_zero.mp (Nat.pow_pos (by decide))
    apply isInfinite_ofRatio negative hten
    rw [hpow, zpow_neg, div_inv_eq_mul]
    exact h

-- A double has 53 bits and a bounded exponent.
theorem shape_bounds {x : Double} {negative : Bool} {mantissa : Nat} {exponent : Int}
    (h : x.shape = .finite negative mantissa exponent) : mantissa < 2 ^ 53 ∧ exponent ≤ 971 := by
  unfold shape hiddenBit at h
  dsimp only at h
  split at h
  · split at h <;> cases h
  · split at h <;> cases h <;> omega

end Coffer.Double
