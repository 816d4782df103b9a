import Mathlib.Data.Nat.Log
import Mathlib.Tactic.FieldSimp
import Mathlib.Tactic.Linarith
import VllmVerifier.Json.DecimalProperties

/-!
Doubles that are no exact decimals: the double nearest to `1 / count`, and the
shortest decimal that reads back as a double, which is how Python writes it.
-/

set_option autoImplicit false

namespace VllmVerifier.Json

open Decimal

/-- `numerator / denominator` to the nearest integer, ties to even. -/
def roundHalfEven (numerator denominator : Nat) : Nat :=
  let quotient := numerator / denominator
  let remainder := 2 * (numerator % denominator)
  if remainder < denominator ∨ remainder = denominator ∧ quotient % 2 = 0 then quotient
  else quotient + 1

/-- The double `mantissa / 2 ^ shift`, with a mantissa from `2 ^ 52` to `2 ^ 53`. -/
structure Double where
  mantissa : Nat
  shift : Nat

namespace Double

/-- `1 / count`, for a count from one to `2 ^ 52`. -/
def reciprocal (count : Nat) : Double :=
  let shift := 52 + (2 * count - 1).log2
  ⟨roundHalfEven (2 ^ shift) count, shift⟩

/-- Whether `digits / 10 ^ places` is read as the double. -/
def reads (double : Double) (digits places : Nat) : Bool :=
  let exact := 4 * double.mantissa * 10 ^ places
  let read := digits * 2 ^ (double.shift + 2)
  let above := 2 * 10 ^ places
  -- doubles are denser below a power of two
  let below := if double.mantissa = 2 ^ 52 then 10 ^ places else 2 * 10 ^ places
  if double.mantissa % 2 = 0 then decide (exact ≤ read + below) && decide (read ≤ exact + above)
  else decide (exact < read + below) && decide (read < exact + above)

/-- The nearest decimal with this many places that is read as the double. -/
def digits? (double : Double) (places : Nat) : Option Nat :=
  let scaled := double.mantissa * 10 ^ places
  let lower := scaled / 2 ^ double.shift
  [roundHalfEven scaled (2 ^ double.shift), lower, lower + 1].find? fun digits =>
    double.reads digits places

/-- `repr` of a double up to one: with as few places as possible. -/
def repr (double : Double) : Decimal :=
  match (List.range double.shift).findSome? fun places =>
    (double.digits? places).map fun digits => ofDecimal false digits (-places) with
  | some decimal => decimal
  | none => ofDecimal false (double.mantissa * 5 ^ double.shift) (-double.shift)

def toRat (double : Double) : ℚ := double.mantissa / 2 ^ double.shift

/-! ## Rounding -/

theorem roundHalfEven_close (numerator : Nat) {denominator : Nat} (positive : 0 < denominator) :
    2 * numerator ≤ 2 * (roundHalfEven numerator denominator * denominator) + denominator ∧
      2 * (roundHalfEven numerator denominator * denominator) ≤ 2 * numerator + denominator := by
  have split := Nat.div_add_mod' numerator denominator
  have bounded := Nat.mod_lt numerator positive
  unfold roundHalfEven
  dsimp only
  split_ifs with low
  · constructor
    · omega
    · omega
  · rw [Nat.add_mul, Nat.one_mul]
    constructor
    · omega
    · omega

/-- Two rationals are as close as their cross products. -/
theorem close_of_products (left right half : Nat) {leftScale rightScale : Nat}
    (leftPositive : 0 < leftScale) (rightPositive : 0 < rightScale)
    (upper : 2 * (left * rightScale) ≤ 2 * (right * leftScale) + half)
    (lower : 2 * (right * leftScale) ≤ 2 * (left * rightScale) + half) :
    |(left : ℚ) / leftScale - right / rightScale| ≤ half / (2 * leftScale * rightScale) := by
  have leftScaled : (0 : ℚ) < leftScale := by exact_mod_cast leftPositive
  have rightScaled : (0 : ℚ) < rightScale := by exact_mod_cast rightPositive
  have upper' : 2 * ((left : ℚ) * rightScale) ≤ 2 * (right * leftScale) + half := by
    exact_mod_cast upper
  have lower' : 2 * ((right : ℚ) * leftScale) ≤ 2 * (left * rightScale) + half := by
    exact_mod_cast lower
  have scaled : (left : ℚ) / leftScale - right / rightScale =
      (2 * (left * rightScale) - 2 * (right * leftScale)) / (2 * leftScale * rightScale) := by
    field_simp
  rw [scaled, abs_div, abs_of_pos (by positivity : (0 : ℚ) < 2 * leftScale * rightScale)]
  apply div_le_div_of_nonneg_right _ (by positivity)
  rw [abs_le]
  exact ⟨by linarith, by linarith⟩

theorem reads_close {double : Double} {digits places : Nat}
    (read : double.reads digits places = true) :
    |(digits : ℚ) / 10 ^ places - double.toRat| ≤ 1 / 2 ^ (double.shift + 1) := by
  have power : 0 < 10 ^ places := Nat.pow_pos (by decide)
  have products : 4 * double.mantissa * 10 ^ places ≤
      digits * 2 ^ (double.shift + 2) + 2 * 10 ^ places ∧
        digits * 2 ^ (double.shift + 2) ≤ 4 * double.mantissa * 10 ^ places + 2 * 10 ^ places := by
    unfold reads at read
    dsimp only at read
    split_ifs at read <;> simp only [Bool.and_eq_true, decide_eq_true_eq] at read <;> omega
  rw [Nat.pow_add, ← Nat.mul_assoc, Nat.mul_assoc 4] at products
  have scale : 0 < 2 ^ double.shift := Nat.pow_pos (by decide)
  have near := close_of_products digits double.mantissa (10 ^ places) power scale (by omega)
    (by omega)
  push_cast at near
  refine near.trans (le_of_eq ?_)
  rw [pow_succ]
  field_simp

theorem repr_close (double : Double) :
    0 ≤ double.repr.toRat ∧ |double.repr.toRat - double.toRat| ≤ 1 / 2 ^ (double.shift + 1) := by
  unfold repr
  split
  · rename_i decimal found
    obtain ⟨places, _, chosen⟩ := List.exists_of_findSome?_eq_some found
    obtain ⟨digits, known, rfl⟩ := Option.map_eq_some_iff.mp chosen
    have read : double.reads digits places = true :=
      List.find?_some (p := fun digits => double.reads digits places) known
    rw [toRat_ofDecimal, value_false, zpow_neg, zpow_natCast, ← div_eq_mul_inv]
    exact ⟨by positivity, reads_close read⟩
  · rw [toRat_ofDecimal, value_false, zpow_neg, zpow_natCast, ← div_eq_mul_inv]
    have exact : ((double.mantissa * 5 ^ double.shift : ℕ) : ℚ) / 10 ^ double.shift =
        double.toRat := by
      have ten : (10 : ℚ) ^ double.shift = 2 ^ double.shift * 5 ^ double.shift := by
        rw [← mul_pow]
        norm_num
      push_cast
      rw [ten, toRat]
      field_simp
    rw [exact, sub_self, abs_zero]
    exact ⟨by unfold toRat; positivity, by positivity⟩

/-! ## Reciprocals -/

theorem le_reciprocal_shift (count : Nat) :
    count * 2 ^ 52 ≤ 2 ^ (reciprocal count).shift := by
  have bound : 2 * count - 1 < 2 ^ ((2 * count - 1).log2 + 1) := Nat.lt_log2_self
  rw [Nat.pow_succ] at bound
  have small : count ≤ 2 ^ (2 * count - 1).log2 := by omega
  rw [reciprocal, Nat.pow_add, Nat.mul_comm]
  exact Nat.mul_le_mul_left _ small

theorem reciprocal_close {count : Nat} (positive : 1 ≤ count) :
    |(reciprocal count).toRat - 1 / count| ≤ 1 / 2 ^ ((reciprocal count).shift + 1) := by
  obtain ⟨lower, upper⟩ := roundHalfEven_close (2 ^ (reciprocal count).shift) positive
  have scale : 0 < 2 ^ (reciprocal count).shift := Nat.pow_pos (by decide)
  have near := close_of_products (reciprocal count).mantissa 1 count scale positive
    (by rwa [Nat.one_mul]) (by rwa [Nat.one_mul])
  have nonzero : (count : ℚ) ≠ 0 := by
    exact_mod_cast (by omega : count ≠ 0)
  push_cast at near
  refine near.trans (le_of_eq ?_)
  rw [pow_succ]
  field_simp

/-- What is written for `1 / count`, taken `count` times, is one but for the rounding. -/
theorem reciprocal_repr {count : Nat} (positive : 1 ≤ count) :
    0 ≤ (reciprocal count).repr.toRat ∧ (reciprocal count).repr.toRat ≤ 1 ∧
      |count * (reciprocal count).repr.toRat - 1| ≤ 1 / 2 ^ 52 := by
  obtain ⟨nonneg, written⟩ := repr_close (reciprocal count)
  have rounded := reciprocal_close positive
  have scale : (0 : ℚ) < count := by exact_mod_cast positive
  have large : (count : ℚ) * 2 ^ 52 ≤ 2 ^ (reciprocal count).shift := by
    exact_mod_cast le_reciprocal_shift count
  have whole : |count * (reciprocal count).repr.toRat - 1| ≤ 1 / 2 ^ 52 := by
    calc |(count : ℚ) * (reciprocal count).repr.toRat - 1|
        = count * |(reciprocal count).repr.toRat - 1 / count| := by
          rw [← abs_of_pos scale, ← abs_mul, abs_of_pos scale, mul_sub, mul_one_div_cancel scale.ne']
      _ ≤ count * (1 / 2 ^ ((reciprocal count).shift + 1) +
            1 / 2 ^ ((reciprocal count).shift + 1)) := by
          apply mul_le_mul_of_nonneg_left _ scale.le
          exact (abs_sub_le _ _ _).trans (add_le_add written rounded)
      _ = count / 2 ^ (reciprocal count).shift := by
          rw [pow_succ]
          field_simp
          ring
      _ ≤ 1 / 2 ^ 52 := by
          rw [div_le_div_iff₀ (by positivity) (by positivity), one_mul]
          exact large
  refine ⟨nonneg, ?_, whole⟩
  rcases Nat.eq_or_lt_of_le positive with rfl | several
  · have one : (reciprocal 1).repr = ofDecimal false 1 0 := by decide +kernel
    rw [one, toRat_ofDecimal, value_false]
    norm_num
  · have two : (2 : ℚ) ≤ count := by exact_mod_cast several
    have upper := (abs_le.mp whole).2
    have doubled := mul_le_mul_of_nonneg_right two nonneg
    have slack : (1 : ℚ) / 2 ^ 52 ≤ 1 := by norm_num
    linarith

end Double

end VllmVerifier.Json
