import Mathlib.Algebra.Order.Field.Basic
import Mathlib.Tactic.Ring
import VllmVerifier.Json.Value

/-!
The exact value of a decimal. Dropping trailing zeros keeps it, so every
rational with a finite decimal expansion is the value of a decimal.
-/

set_option autoImplicit false

namespace VllmVerifier.Json.Decimal

/-- A rational with a finite decimal expansion; every binary float is one. -/
def Finite (number : ℚ) : Prop := ∃ (digits : ℤ) (scale : ℕ), number = digits / 10 ^ scale

theorem value_false (digits : Nat) (exponent : Int) :
    value false digits exponent = digits * (10 : ℚ) ^ exponent := by
  simp only [value, Bool.false_eq_true, if_false]
  rw [mul_div_assoc]
  congr 1
  rw [← zpow_natCast, ← zpow_natCast, ← zpow_sub₀ (by norm_num : (10 : ℚ) ≠ 0)]
  congr 1
  omega

theorem value_true (digits : Nat) (exponent : Int) :
    value true digits exponent = -value false digits exponent := by
  simp [value]

theorem trim_value (fuel digits : Nat) (exponent : Int) :
    value false (trim fuel digits exponent).1 (trim fuel digits exponent).2 =
      value false digits exponent := by
  induction fuel generalizing digits exponent with
  | zero => rfl
  | succ fuel ih =>
      by_cases divides : digits % 10 = 0
      · simp only [trim, divides, if_true]
        rw [ih, value_false, value_false, zpow_add₀ (by norm_num), zpow_one]
        have whole : ((digits / 10 * 10 : ℕ) : ℚ) = digits :=
          congrArg Nat.cast (Nat.div_mul_cancel (Nat.dvd_of_mod_eq_zero divides))
        rw [← whole]
        push_cast
        ring
      · simp [trim, divides]

theorem toRat_ofDecimal (negative : Bool) (digits : Nat) (exponent : Int) :
    (ofDecimal negative digits exponent).toRat = value negative digits exponent := by
  by_cases positive : 0 < digits
  · simp only [ofDecimal, positive, dif_pos, toRat]
    cases negative with
    | false => exact trim_value digits digits exponent
    | true => rw [value_true, value_true, trim_value]
  · have zero : digits = 0 := Nat.eq_zero_of_not_pos positive
    cases negative <;> simp [ofDecimal, toRat, zero, value]

theorem Finite.exists_toRat {number : ℚ} (finite : Finite number) :
    ∃ decimal : Decimal, decimal.toRat = number := by
  obtain ⟨digits, scale, rfl⟩ := finite
  refine ⟨ofDecimal (decide (digits < 0)) digits.natAbs (-scale), ?_⟩
  have power : (10 : ℚ) ^ (-(scale : ℤ)) = 1 / 10 ^ scale := by
    rw [zpow_neg, zpow_natCast, one_div]
  rw [toRat_ofDecimal]
  by_cases negative : digits < 0
  · have magnitude : (digits.natAbs : ℚ) = -digits := by
      rw [Nat.cast_natAbs, abs_of_neg negative, Int.cast_neg]
    rw [decide_eq_true negative, value_true, value_false, magnitude, power]
    ring
  · have magnitude : (digits.natAbs : ℚ) = digits := by
      rw [Nat.cast_natAbs, abs_of_nonneg (not_lt.mp negative)]
    rw [decide_eq_false negative, value_false, magnitude, power]
    ring

end VllmVerifier.Json.Decimal
