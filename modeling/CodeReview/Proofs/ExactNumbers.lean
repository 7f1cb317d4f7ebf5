import CodeReview.Floating
import Mathlib.Algebra.Order.Field.Power
import Mathlib.Data.Rat.Cast.Order
import Mathlib.Tactic.Positivity
import Mathlib.Tactic.Ring

/-! # Floating-point numbers as exact numbers

    A binary number is an exact number, and so is every floating-point
    number that is not too large.  Powers of two are multiplied without
    rounding: a floating-point number for an exact number becomes one for
    the exact product (`Denotes.shift`). -/

namespace CodeReview

namespace Binary

/-- The exact number (−1)^negative · mantissa · 2^exponent. -/
def value (x : Binary) : ℚ :=
  (if x.negative then -1 else 1) * (x.mantissa * 2 ^ x.exponent)

/-- Shifting a number doubles its value. -/
theorem value_shift (x : Binary) (k : Nat) :
    (x.shift k).value = x.value * 2 ^ k := by
  rw [value, value, shift, zpow_add₀ two_ne_zero, zpow_natCast]
  ring

/-- The size of a number comes from its mantissa, whatever its sign. -/
theorem abs_value (x : Binary) :
    |x.value| = x.mantissa * 2 ^ x.exponent := by
  have hnonneg : (0 : ℚ) ≤ x.mantissa * 2 ^ x.exponent := by positivity
  rw [value, abs_mul, abs_of_nonneg hnonneg]
  cases x.negative <;> simp

/-- The leading bit places a number between two neighbouring powers of
    two. -/
theorem abs_value_bounds {x : Binary} (h : x.mantissa ≠ 0) :
    2 ^ ((x.mantissa.log2 : ℤ) + x.exponent) ≤ |x.value|
      ∧ |x.value| < 2 ^ ((x.mantissa.log2 : ℤ) + 1 + x.exponent) := by
  have hpow : (0 : ℚ) < 2 ^ x.exponent := zpow_pos two_pos _
  have hleast : (2 : ℚ) ^ (x.mantissa.log2 : ℤ) ≤ x.mantissa := by
    rw [zpow_natCast]
    exact_mod_cast Nat.log2_self_le h
  have hgreatest : (x.mantissa : ℚ) < 2 ^ ((x.mantissa.log2 : ℤ) + 1) := by
    have hlt : x.mantissa < 2 ^ (x.mantissa.log2 + 1) := Nat.lt_log2_self
    exact_mod_cast hlt
  rw [abs_value, zpow_add₀ two_ne_zero, zpow_add₀ two_ne_zero _ x.exponent]
  exact ⟨mul_le_mul_of_nonneg_right hleast hpow.le,
    mul_lt_mul_of_pos_right hgreatest hpow⟩

/-- The sign of a number that is not zero. -/
theorem negative_eq_decide {x : Binary} (h : x.value ≠ 0) :
    x.negative = decide (x.value < 0) := by
  have hpos : (0 : ℚ) < x.mantissa * 2 ^ x.exponent := by
    rw [← abs_value]
    exact abs_pos.mpr h
  cases hsign : x.negative with
  | true =>
      have hneg : x.value < 0 := by
        rw [value, hsign, if_pos rfl, neg_one_mul]
        exact neg_lt_zero.mpr hpos
      exact (decide_eq_true hneg).symm
  | false =>
      have hnonneg : ¬ x.value < 0 := by
        rw [value, hsign, if_neg Bool.false_ne_true, one_mul]
        exact not_lt_of_gt hpos
      exact (decide_eq_false hnonneg).symm

end Binary

namespace Floating

/-- The size that finite numbers stay below. -/
def ceiling : ℚ := 2 ^ (1024 : ℤ)

/-- There are numbers below the ceiling. -/
theorem ceiling_pos : 0 < ceiling := zpow_pos two_pos 1024

/-- The test of the leading bit tells whether a number is small enough. -/
theorem isBounded_iff (x : Binary) :
    isBounded x = true ↔ |x.value| < ceiling := by
  rw [isBounded, Bool.or_eq_true, beq_iff_eq, decide_eq_true_eq]
  by_cases hzero : x.mantissa = 0
  · rw [Binary.abs_value, hzero, Nat.cast_zero, zero_mul]
    exact iff_of_true (.inl rfl) ceiling_pos
  rw [or_iff_right hzero]
  obtain ⟨hleast, hgreatest⟩ := Binary.abs_value_bounds hzero
  constructor
  · intro hlog
    have hle : (2 : ℚ) ^ ((x.mantissa.log2 : ℤ) + 1 + x.exponent) ≤ ceiling :=
      zpow_le_zpow_right₀ one_le_two (by omega)
    exact lt_of_lt_of_le hgreatest hle
  · intro hlt
    exact (zpow_lt_zpow_iff_right₀ one_lt_two).mp (lt_of_le_of_lt hleast hlt)

/-- Whether a floating-point number stands for an exact number: it is that
    number, or the infinity of its sign if it is too large. -/
inductive Denotes : Floating → ℚ → Prop
  | finite (x : Binary) : Denotes (.finite x) x.value
  | infinite {q : ℚ} (hlarge : ceiling ≤ |q|) :
      Denotes (.infinite (decide (q < 0))) q

/-- A binary number that is made floating stands for its own value. -/
theorem denotes_ofBinary (x : Binary) : (ofBinary x).Denotes x.value := by
  rw [ofBinary]
  split
  · exact .finite x
  · rename_i hunbounded
    rw [isBounded_iff, not_lt] at hunbounded
    have hne : x.value ≠ 0 :=
      abs_pos.mp (lt_of_lt_of_le ceiling_pos hunbounded)
    rw [Binary.negative_eq_decide hne]
    exact .infinite hunbounded

/-- **NO ROUNDING**: a power of two is multiplied exactly. -/
theorem Denotes.shift {f : Floating} {q : ℚ} (h : f.Denotes q) (k : Nat) :
    (f.shift k).Denotes (q * 2 ^ k) := by
  have hpow : (1 : ℚ) ≤ 2 ^ k := one_le_pow₀ one_le_two
  cases h with
  | finite x =>
      rw [← Binary.value_shift]
      exact denotes_ofBinary (x.shift k)
  | infinite hlarge =>
      have hpos : (0 : ℚ) < 2 ^ k := lt_of_lt_of_le one_pos hpow
      have hsign : decide (q < 0) = decide (q * 2 ^ k < 0) := by
        rw [decide_eq_decide, ← mul_lt_mul_iff_left₀ hpos, zero_mul]
      show Denotes (.infinite (decide (q < 0))) _
      rw [hsign]
      refine .infinite ?_
      rw [abs_mul, abs_of_pos hpos]
      exact le_trans hlarge (le_mul_of_one_le_right (abs_nonneg q) hpow)

end Floating

end CodeReview
