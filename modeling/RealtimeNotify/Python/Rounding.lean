import Mathlib.Algebra.Order.Field.Power
import Mathlib.Data.Int.Log
import Mathlib.Data.Rat.Floor
import Mathlib.Tactic.Positivity
import RealtimeNotify.Python.Float

/-!
# Rounding looks at the value

A decimal may be written in many ways: with zeros behind its digits, with another
exponent. The double nearest to it is the same for all of them.
-/

namespace RealtimeNotify.Python

variable {num den k : Nat}

/-- A fraction that is expanded rounds as before. -/
theorem roundHalfEven_mul (hk : 0 < k) :
    roundHalfEven (num * k) (den * k) = roundHalfEven num den := by
  have hlt : 2 * (num % den * k) < den * k ↔ 2 * (num % den) < den := by
    rw [← Nat.mul_assoc]
    exact Nat.mul_lt_mul_right hk
  have heq : 2 * (num % den * k) = den * k ↔ 2 * (num % den) = den := by
    rw [← Nat.mul_assoc]
    exact Nat.mul_left_inj hk.ne'
  simp only [roundHalfEven, Nat.mul_div_mul_right _ _ hk, Nat.mul_mod_mul_right, hlt, heq]

/-! ## The exponent of a fraction -/

/-- The test in `floorLog2` compares with a power of two. -/
theorem pow_le_fraction (hden : 0 < den) (e : Int) :
    den * 2 ^ e.toNat ≤ num * 2 ^ (-e).toNat ↔ (2 : ℚ) ^ e ≤ num / den := by
  have hcast : (0 : ℚ) < den := by exact_mod_cast hden
  rw [le_div_iff₀ hcast]
  obtain ⟨n, rfl | rfl⟩ := e.eq_nat_or_neg
  · have hneg : (-(n : Int)).toNat = 0 := by omega
    rw [hneg, Int.toNat_natCast, pow_zero, mul_one, zpow_natCast, mul_comm]
    exact_mod_cast Iff.rfl
  · have hpos : (0 : ℚ) < 2 ^ n := by positivity
    have hneg : (-(n : Int)).toNat = 0 := by omega
    rw [hneg, neg_neg, Int.toNat_natCast, pow_zero, mul_one, zpow_neg, zpow_natCast,
      inv_mul_le_iff₀ hpos, mul_comm (2 ^ n)]
    exact_mod_cast Iff.rfl

theorem floorLog2_eq_log (hnum : 0 < num) (hden : 0 < den) :
    floorLog2 num den = Int.log 2 ((num : ℚ) / den) := by
  have hnumLow : (2 : ℚ) ^ num.log2 ≤ num := by exact_mod_cast Nat.log2_self_le hnum.ne'
  have hnumHigh : (num : ℚ) < 2 ^ (num.log2 + 1) := by exact_mod_cast Nat.lt_log2_self
  have hdenLow : (2 : ℚ) ^ den.log2 ≤ den := by exact_mod_cast Nat.log2_self_le hden.ne'
  have hdenHigh : (den : ℚ) < 2 ^ (den.log2 + 1) := by exact_mod_cast Nat.lt_log2_self
  have hpos : (0 : ℚ) < den := by exact_mod_cast hden
  have hfraction : (0 : ℚ) < num / den := div_pos (by exact_mod_cast hnum) hpos
  have hsplit : ∀ m n : Nat, (2 : ℚ) ^ ((m : Int) - n) * 2 ^ n = 2 ^ m := by
    intro m n
    rw [← zpow_natCast, ← zpow_natCast, ← zpow_add₀ two_ne_zero, sub_add_cancel]
  -- the fraction is within a factor of two of the quotient of the two powers
  have hbelow : (2 : ℚ) ^ ((num.log2 : Int) - (den.log2 + 1 : Nat)) ≤ num / den := by
    rw [le_div_iff₀ hpos]
    calc (2 : ℚ) ^ ((num.log2 : Int) - (den.log2 + 1 : Nat)) * den
        ≤ 2 ^ ((num.log2 : Int) - (den.log2 + 1 : Nat)) * 2 ^ (den.log2 + 1) := by gcongr
      _ = 2 ^ num.log2 := hsplit _ _
      _ ≤ num := hnumLow
  have habove : (num : ℚ) / den < 2 ^ (((num.log2 + 1 : Nat) : Int) - den.log2) := by
    rw [div_lt_iff₀ hpos]
    calc (num : ℚ) < 2 ^ (num.log2 + 1) := hnumHigh
      _ = 2 ^ (((num.log2 + 1 : Nat) : Int) - den.log2) * 2 ^ den.log2 := (hsplit _ _).symm
      _ ≤ 2 ^ (((num.log2 + 1 : Nat) : Int) - den.log2) * den := by gcongr
  replace hbelow := (Int.zpow_le_iff_le_log (b := 2) (by decide) hfraction).mp hbelow
  replace habove := (Int.lt_zpow_iff_log_lt (b := 2) (by decide) hfraction).mp habove
  have htest := (pow_le_fraction hden (num.log2 - den.log2)).trans
    (Int.zpow_le_iff_le_log (b := 2) (by decide) hfraction)
  rw [floorLog2]
  split
  · rename_i h
    have := htest.mp h
    omega
  · rename_i h
    have := fun hle => h (htest.mpr hle)
    omega

theorem floorLog2_mul (hnum : 0 < num) (hden : 0 < den) (hk : 0 < k) :
    floorLog2 (num * k) (den * k) = floorLog2 num den := by
  have hcast : (k : ℚ) ≠ 0 := by exact_mod_cast hk.ne'
  rw [floorLog2_eq_log (Nat.mul_pos hnum hk) (Nat.mul_pos hden hk), floorLog2_eq_log hnum hden,
    Nat.cast_mul, Nat.cast_mul, mul_div_mul_right _ _ hcast]

/-! ## The nearest double -/

theorem Double.nearest_mul (hnum : 0 < num) (hden : 0 < den) (hk : 0 < k) :
    Double.nearest (num * k) (den * k) = Double.nearest num den := by
  have hround : ∀ a b, roundHalfEven (num * k * a) (den * k * b)
      = roundHalfEven (num * a) (den * b) := by
    intro a b
    rw [Nat.mul_right_comm, Nat.mul_right_comm den, roundHalfEven_mul hk]
  simp only [Double.nearest, floorLog2_mul hnum hden hk, hround]

/-- Equal fractions have the same nearest double. -/
theorem Double.nearest_congr {num' den' : Nat} (hnum : 0 < num) (hden : 0 < den)
    (hnum' : 0 < num') (hden' : 0 < den') (h : num * den' = num' * den) :
    Double.nearest num den = Double.nearest num' den' := by
  rw [← Double.nearest_mul hnum hden hden', h, Nat.mul_comm den,
    Double.nearest_mul hnum' hden' hden]

/-- Zeros behind the digits count in the exponent. -/
theorem Double.ofDecimal_zeros (digits zeros : Nat) (exponent : Int) :
    Double.ofDecimal (digits * 10 ^ zeros) exponent
      = Double.ofDecimal digits (exponent + zeros) := by
  have hten : 0 < 10 ^ zeros := by positivity
  by_cases hdigits : digits = 0
  · simp [Double.ofDecimal, hdigits]
  · rw [Double.ofDecimal, Double.ofDecimal, if_neg hdigits,
      if_neg (Nat.mul_ne_zero hdigits hten.ne')]
    have hpos : 0 < digits := Nat.pos_of_ne_zero hdigits
    refine Double.nearest_congr (by positivity) (by positivity) (by positivity) (by positivity) ?_
    -- on both sides the same power of ten
    have hpowers : zeros + exponent.toNat + (-(exponent + zeros)).toNat
        = (exponent + zeros).toNat + (-exponent).toNat := by omega
    simp only [Nat.mul_assoc, ← Nat.pow_add]
    rw [hpowers]

end RealtimeNotify.Python
