import Coffer.Decimal.Shortest
import Coffer.Proofs.Decimal.Double

namespace Coffer.Double

-- The decimal that is written for a double is hardly above it

def Decimal.value (x : Decimal) : ℚ := x.digits * 10 ^ x.exponent

namespace Neighbourhood

variable {v : Neighbourhood} {d : Nat} {p : Int}

theorem quarters_pos (v : Neighbourhood) (d : Nat) (p : Int) : 0 < (v.quarters d p).2 := by
  unfold quarters
  apply scaleRatio_pos
  split
  · exact Nat.one_pos
  · exact Nat.pow_pos (by decide)

theorem quarters_value (v : Neighbourhood) (d : Nat) (p : Int) :
    ((v.quarters d p).1 : ℚ) / (v.quarters d p).2 = d * 10 ^ p * 2 ^ (2 - v.exponent) := by
  unfold quarters
  rw [scaleRatio_value, neg_sub]
  congr 1
  split
  · have hpow := pow_toNat ‹0 ≤ p› 10
    rw [Nat.cast_mul, hpow, Nat.cast_one, div_one]
    rfl
  · have hpow := pow_toNat (p := -p) (by omega) 10
    dsimp only
    rw [hpow, zpow_neg, div_inv_eq_mul]
    rfl

-- What is not too far above the number, the bound itself only if the number is even.
def IsNear (v : Neighbourhood) (q : ℚ) : Prop :=
  q ≤ (2 * v.mantissa + 1) * 2 ^ (v.exponent - 1) ∧
    (v.mantissa % 2 ≠ 0 → q < (2 * v.mantissa + 1) * 2 ^ (v.exponent - 1))

theorem isNear_of_le {q : ℚ} (h : q ≤ v.mantissa * 2 ^ v.exponent) : v.IsNear q := by
  have hexp : v.exponent = v.exponent - 1 + 1 := by omega
  have hpow : (0 : ℚ) < 2 ^ (v.exponent - 1) := by positivity
  rw [hexp, zpow_add_one₀ (by norm_num)] at h
  have hlt : q < (2 * v.mantissa + 1) * 2 ^ (v.exponent - 1) := by linarith
  exact ⟨hlt.le, fun _ => hlt⟩

theorem isNear_of_holds (h : v.holds d p = true) : v.IsNear (d * 10 ^ p) := by
  have hpos : (0 : ℚ) < (v.quarters d p).2 := by exact_mod_cast quarters_pos v d p
  have hvalue := quarters_value v d p
  have htwo : (2 : ℚ) ≠ 0 := by norm_num
  have hscale (q : ℚ) : q = q * 2 ^ (2 - v.exponent) * 2 ^ (v.exponent - 2) := by
    rw [mul_assoc, ← zpow_add₀ htwo, sub_add_sub_cancel, sub_self, zpow_zero, mul_one]
  have hend : ((2 * v.mantissa + 1) * 2 ^ (v.exponent - 1) : ℚ) =
      (4 * v.mantissa + 2) * 2 ^ (v.exponent - 2) := by
    have hexp : v.exponent - 1 = v.exponent - 2 + 1 := by omega
    rw [hexp, zpow_add_one₀ htwo]
    ring
  have hpow : (0 : ℚ) < 2 ^ (v.exponent - 2) := by positivity
  rw [IsNear, hend, hscale (d * 10 ^ p), ← hvalue]
  unfold holds at h
  dsimp only at h
  split at h
  · simp only [Bool.and_eq_true, decide_eq_true_eq] at h
    refine ⟨?_, fun hodd => absurd ‹_ = 0› hodd⟩
    have hle : ((v.quarters d p).1 : ℚ) / (v.quarters d p).2 ≤ 4 * v.mantissa + 2 := by
      rw [div_le_iff₀ hpos]
      exact_mod_cast h.2
    exact mul_le_mul_of_nonneg_right hle hpow.le
  · simp only [Bool.and_eq_true, decide_eq_true_eq] at h
    have hlt : ((v.quarters d p).1 : ℚ) / (v.quarters d p).2 < 4 * v.mantissa + 2 := by
      rw [div_lt_iff₀ hpos]
      exact_mod_cast h.2
    exact ⟨mul_le_mul_of_nonneg_right hlt.le hpow.le, fun _ => mul_lt_mul_of_pos_right hlt hpow⟩

theorem floor_eq (v : Neighbourhood) (p : Int) :
    ∃ n m : Nat, 0 < m ∧ v.floor p = n / m ∧ (n : ℚ) / m * 10 ^ p = v.mantissa * 2 ^ v.exponent := by
  have hscaled := scaleRatio_value v.mantissa 1 (-v.exponent)
  have hpos := scaleRatio_pos v.mantissa Nat.one_pos (-v.exponent)
  rw [neg_neg, Nat.cast_one, div_one] at hscaled
  have hten : (10 : ℚ) ^ p ≠ 0 := zpow_ne_zero _ (by norm_num)
  unfold floor
  dsimp only
  split
  · have hpow := pow_toNat ‹0 ≤ p› 10
    refine ⟨_, (scaleRatio v.mantissa 1 (-v.exponent)).2 * Nat.pow 10 p.toNat,
      Nat.mul_pos hpos (Nat.pow_pos (by decide)), rfl, ?_⟩
    rw [← hscaled, Nat.cast_mul, hpow, Nat.cast_ofNat, div_mul_eq_div_div, div_mul_cancel₀ _ hten]
  · have hpow := pow_toNat (p := -p) (by omega) 10
    refine ⟨_, _, hpos, rfl, ?_⟩
    rw [← hscaled, Nat.cast_mul, hpow, Nat.cast_ofNat, mul_div_right_comm, mul_assoc,
      ← zpow_add₀ (by norm_num), neg_add_cancel, zpow_zero, mul_one]

theorem floor_le (v : Neighbourhood) (p : Int) :
    (v.floor p : ℚ) * 10 ^ p ≤ v.mantissa * 2 ^ v.exponent := by
  obtain ⟨n, m, hm, hfloor, hvalue⟩ := floor_eq v p
  rw [hfloor, ← hvalue]
  have hdiv : ((n / m : Nat) : ℚ) ≤ n / m := Nat.cast_div_le
  gcongr

theorem floor_ne_zero (h : (10 : ℚ) ^ p ≤ v.mantissa * 2 ^ v.exponent) : v.floor p ≠ 0 := by
  obtain ⟨n, m, hm, hfloor, hvalue⟩ := floor_eq v p
  rw [← hvalue] at h
  have hten : (0 : ℚ) < 10 ^ p := by positivity
  have hone : (1 : ℚ) ≤ n / m := by
    by_contra hnot
    have := mul_lt_mul_of_pos_right (not_le.mp hnot) hten
    linarith
  have hmpos : (0 : ℚ) < m := by exact_mod_cast hm
  have hle : m ≤ n := by
    rw [one_le_div hmpos] at hone
    exact_mod_cast hone
  rw [hfloor]
  exact Nat.pos_iff_ne_zero.mp (Nat.div_pos hle hm)

theorem le_of_floor_ne_zero (h : v.floor p ≠ 0) : (10 : ℚ) ^ p ≤ v.mantissa * 2 ^ v.exponent := by
  have hone : (1 : ℚ) ≤ v.floor p := by exact_mod_cast Nat.one_le_iff_ne_zero.mpr h
  have hten : (0 : ℚ) < 10 ^ p := by positivity
  calc (10 : ℚ) ^ p ≤ v.floor p * 10 ^ p := le_mul_of_one_le_left hten.le hone
    _ ≤ v.mantissa * 2 ^ v.exponent := floor_le v p

theorem onGrid?_eq_some (h : v.onGrid? p = some d) : v.holds d p = true ∧ d ≠ 0 := by
  unfold onGrid? at h
  dsimp only at h
  cases hdown : v.holds (v.floor p) p && decide (v.floor p ≠ 0) <;>
    cases hup : v.holds (v.floor p + 1) p <;> simp only [hdown, hup] at h
  · cases h
  · cases h
    exact ⟨hup, Nat.succ_ne_zero _⟩
  all_goals
    simp only [Bool.and_eq_true, decide_eq_true_eq] at hdown
  · cases h
    exact hdown
  · have hup : v.holds (v.floor p + 1) p = true ∧ v.floor p + 1 ≠ 0 := ⟨hup, Nat.succ_ne_zero _⟩
    split at h
    · cases h
      exact hdown
    split at h
    · cases h
      exact hup
    split at h
    · cases h
      exact hdown
    · cases h
      exact hup

-- The search ends on the grid, or with all the digits that there are.
theorem searchFrom_near (v : Neighbourhood) (lead : Int) (count fuel : Nat) :
    v.IsNear (v.searchFrom lead count fuel).value ∧
      ((v.searchFrom lead count fuel).digits ≠ 0 ∨
        v.searchFrom lead count fuel = ⟨v.floor (lead - 16), lead - 16⟩) := by
  induction fuel generalizing count with
  | zero => exact ⟨isNear_of_le (floor_le v _), .inr rfl⟩
  | succ fuel ih =>
      rw [searchFrom]
      cases hgrid : v.onGrid? (lead - count) with
      | none => exact ih (count + 1)
      | some d =>
          obtain ⟨hholds, hd⟩ := onGrid?_eq_some hgrid
          exact ⟨isNear_of_holds hholds, .inl hd⟩

theorem pow_guess_le {k : Int} (hpos : 0 ≤ k) (hk : k ≤ 1024) :
    (10 : ℚ) ^ (Int.fdiv (k * 30102999566) 100000000000 - 16) ≤ 2 ^ k := by
  have hguess : Int.fdiv (k * 30102999566) 100000000000 - 16 ≤ 3 * (k / 10) := by
    rw [Int.fdiv_eq_ediv_of_nonneg _ (by decide)]
    omega
  calc (10 : ℚ) ^ (Int.fdiv (k * 30102999566) 100000000000 - 16) ≤ 10 ^ (3 * (k / 10)) :=
        zpow_le_zpow_right₀ (by norm_num) hguess
    _ = (10 ^ (3 : Int)) ^ (k / 10) := zpow_mul _ _ _
    _ ≤ (2 ^ (10 : Int)) ^ (k / 10) := zpow_le_zpow_left₀ (by omega) (by norm_num) (by norm_num)
    _ = 2 ^ (10 * (k / 10)) := (zpow_mul _ _ _).symm
    _ ≤ 2 ^ k := zpow_le_zpow_right₀ (by norm_num) (by omega)

-- Sixteen places behind a leading digit left of the point there are digits.
theorem floor_lead_ne_zero {lead : Int} (hmantissa : v.mantissa ≠ 0) (hsmall : v.mantissa < 2 ^ 53)
    (hexponent : v.exponent ≤ 971) (hlead : v.leadingDigit = lead) (hpos : 0 ≤ lead) :
    v.floor (lead - 16) ≠ 0 := by
  have htwo : (2 : ℚ) ≠ 0 := by norm_num
  let k : Int := Nat.log2 v.mantissa + v.exponent
  have hlog : Nat.log2 v.mantissa < 53 := (Nat.log2_lt hmantissa).mpr hsmall
  have hvalue : (2 : ℚ) ^ k ≤ v.mantissa * 2 ^ v.exponent := by
    rw [zpow_add₀ htwo]
    have := (log2_bounds hmantissa).1
    gcongr
  apply floor_ne_zero
  rw [leadingDigit] at hlead
  split at hlead
  · have hk : 0 ≤ k := by
      rw [Int.fdiv_eq_ediv_of_nonneg _ (by decide)] at hlead
      omega
    rw [← hlead]
    exact (pow_guess_le hk (by omega)).trans hvalue
  · rw [← hlead]
    refine le_trans ?_ (le_of_floor_ne_zero ‹_›)
    exact zpow_le_zpow_right₀ (by norm_num) (by omega)

end Neighbourhood

theorem dropZeros_value (fuel d : Nat) (p : Int) :
    (dropZeros fuel d p).value = d * 10 ^ p ∧ ((dropZeros fuel d p).digits = 0 → d = 0) ∧
      (d = 0 → (dropZeros fuel d p).exponent = p) := by
  induction fuel generalizing d p with
  | zero => exact ⟨rfl, id, fun _ => rfl⟩
  | succ fuel ih =>
      rw [dropZeros]
      split
      · obtain ⟨hvalue, hdigits, hexponent⟩ := ih (d / 10) (p + 1)
        obtain ⟨hmod, hd⟩ := ‹_ ∧ _›
        have hsplit : (d : ℚ) = (d / 10 : Nat) * 10 := by
          have : d = d / 10 * 10 := by omega
          exact_mod_cast this
        refine ⟨?_, fun h => absurd (hdigits h) (by omega), fun h => absurd h hd⟩
        rw [hvalue, hsplit, zpow_add_one₀ (by norm_num)]
        ring
      · exact ⟨rfl, id, fun _ => rfl⟩

-- The shortest decimal is below the bound, and if it has no digits it is no large power of ten.
theorem shortest_bounds {mantissa : Nat} {exponent : Int} (hmantissa : mantissa < 2 ^ 53)
    (hexponent : exponent ≤ 971) :
    (shortest mantissa exponent).value < ceiling ∧
      ((shortest mantissa exponent).digits = 0 → (shortest mantissa exponent).exponent ≤ 0) := by
  unfold shortest
  split
  · refine ⟨?_, fun _ => Int.le_refl _⟩
    norm_num [Decimal.value, ceiling]
  let v : Neighbourhood := ⟨mantissa, exponent⟩
  obtain ⟨⟨hle, hlt⟩, hdigits⟩ := Neighbourhood.searchFrom_near v v.leadingDigit 0 17
  obtain ⟨hvalue, hzero, hsame⟩ := dropZeros_value 20
    (v.searchFrom v.leadingDigit 0 17).digits (v.searchFrom v.leadingDigit 0 17).exponent
  constructor
  · have hpow : (2 : ℚ) ^ (exponent - 1) ≤ 2 ^ (970 : Int) :=
      zpow_le_zpow_right₀ (by norm_num) (by omega)
    have hpos : (0 : ℚ) < 2 ^ (exponent - 1) := by positivity
    dsimp only
    rw [hvalue, ceiling]
    by_cases heven : mantissa % 2 = 0
    · have hsmall : (2 * mantissa + 1 : ℚ) < 2 ^ 54 - 1 := by
        have : 2 * mantissa + 1 + 1 < 2 ^ 54 := by omega
        rw [lt_sub_iff_add_lt]
        exact_mod_cast this
      refine hle.trans_lt ?_
      exact (mul_lt_mul_of_pos_right hsmall hpos).trans_le
        (mul_le_mul_of_nonneg_left hpow (by norm_num))
    · have hsmall : (2 * mantissa + 1 : ℚ) ≤ 2 ^ 54 - 1 := by
        have : 2 * mantissa + 1 + 1 ≤ 2 ^ 54 := by omega
        rw [le_sub_iff_add_le]
        exact_mod_cast this
      refine (hlt heven).trans_le ?_
      exact (mul_le_mul_of_nonneg_right hsmall hpos.le).trans
        (mul_le_mul_of_nonneg_left hpow (by norm_num))
  · intro hnone
    have hnone := hzero hnone
    have hfallback := hdigits.resolve_left (not_not.mpr hnone)
    dsimp only
    rw [hsame hnone]
    by_contra hlarge
    rw [hfallback] at hnone hlarge
    have hlead : 0 ≤ v.leadingDigit := by
      dsimp only at hlarge
      omega
    exact Neighbourhood.floor_lead_ne_zero ‹_› hmantissa hexponent rfl hlead hnone

end Coffer.Double
