import Mathlib.Algebra.Order.Field.Power
import Mathlib.Algebra.Order.Ring.Cast
import Mathlib.Algebra.Order.Ring.Rat
import Mathlib.Data.Rat.Cast.Order
import LogicSignature.Proofs.IntegralQuantity

/-
Quantities as exact numbers. A quantity stands for a rational number or for one of the two infinite
ends of the line, unless it is undefined. Comparison with an integer is the order of this line, and
a quantity is integral if it stands for an integer.
-/

namespace LogicSignature

namespace Binary64

/-- The number that a finite number of the format stands for. -/
def finiteAmount (negative : Bool) (mantissa : Nat) (exponent : Int) : ℚ :=
  signed negative mantissa * 2 ^ exponent

theorem two_zpow_of_nonneg {exponent : Int} (hExponent : 0 ≤ exponent) :
    (2 : ℚ) ^ exponent = ((Nat.pow 2 exponent.toNat : Nat) : ℚ) := by
  obtain ⟨power, rfl⟩ := Int.eq_ofNat_of_zero_le hExponent
  simp

theorem two_zpow_mul_of_neg {exponent : Int} (hExponent : ¬ 0 ≤ exponent) :
    (2 : ℚ) ^ exponent * ((Nat.pow 2 (-exponent).toNat : Nat) : ℚ) = 1 := by
  rw [← two_zpow_of_nonneg (by omega), ← zpow_add₀ two_ne_zero, Int.add_right_neg, zpow_zero]

theorem cast_units_zero (negative : Bool) (mantissa : Nat) {exponent : Int}
    (hExponent : 0 ≤ exponent) :
    (units negative mantissa exponent 0 : ℚ) = finiteAmount negative mantissa exponent := by
  rw [finiteAmount, two_zpow_of_nonneg hExponent, units, signed, Int.sub_zero]
  cases negative <;> simp

theorem compare_eq_cmp (left right : Int) : compare left right = cmp (left : ℚ) (right : ℚ) := by
  rw [Int.cast_strictMono.cmp_map_eq, cmp_eq_compare]

theorem compareInt?_finite (number : Int) (negative : Bool) (mantissa : Nat) (exponent : Int) :
    compareInt? number (.finite negative mantissa exponent) =
      some (cmp (number : ℚ) (finiteAmount negative mantissa exponent)) := by
  rw [compareInt?]
  by_cases hExponent : 0 ≤ exponent
  · rw [if_pos hExponent, compare_eq_cmp, cast_units_zero _ _ hExponent]
  · -- Both sides were multiplied by the unit, which is positive.
    have hScale : (0 : ℚ) < ((Nat.pow 2 (-exponent).toNat : Nat) : ℚ) :=
      Nat.cast_pos.mpr (Nat.pow_pos (by decide))
    rw [if_neg hExponent, compare_eq_cmp, units_self, ← cmp_mul_pos_right hScale (number : ℚ),
      finiteAmount, mul_assoc, two_zpow_mul_of_neg hExponent, mul_one, Int.cast_mul]
    rfl

theorem isIntegral_finite_iff (negative : Bool) (mantissa : Nat) (exponent : Int) :
    (finite negative mantissa exponent).isIntegral = true ↔
      ∃ value : Int, finiteAmount negative mantissa exponent = value := by
  rw [isIntegral]
  by_cases hExponent : 0 ≤ exponent
  · simp only [if_pos hExponent, true_iff]
    exact ⟨units negative mantissa exponent 0, (cast_units_zero _ _ hExponent).symm⟩
  · have hUnit := two_zpow_mul_of_neg hExponent
    rw [if_neg hExponent, beq_iff_eq]
    generalize Nat.pow 2 (-exponent).toNat = scale at hUnit ⊢
    constructor
    · intro hMultiple
      obtain ⟨quotient, rfl⟩ := Nat.dvd_of_mod_eq_zero hMultiple
      refine ⟨signed negative quotient, ?_⟩
      rw [finiteAmount, signed_mul, Int.cast_mul, mul_assoc, Int.cast_natCast, mul_comm (scale : ℚ),
        hUnit, mul_one]
    · rintro ⟨value, hValue⟩
      have hSigned : signed negative mantissa = value * scale := by
        have hScaled : (signed negative mantissa : ℚ) = value * scale := by
          rw [← hValue, finiteAmount, mul_assoc, hUnit, mul_one]
        exact_mod_cast hScaled
      have hMantissa : mantissa = value.natAbs * scale := by
        have hAbs := congrArg Int.natAbs hSigned
        rw [Int.natAbs_mul, Int.natAbs_natCast] at hAbs
        rw [← hAbs, signed]
        cases negative <;> simp
      rw [hMantissa, Nat.mul_mod_left]

end Binary64

namespace Quantity

/-- The number that a quantity stands for, on the line with both infinite ends. -/
def amount? : Quantity → Option (WithBot (WithTop ℚ))
  | .integer number => some ((number : ℚ) : WithTop ℚ)
  | .real (.finite negative mantissa exponent) =>
    some ((Binary64.finiteAmount negative mantissa exponent : ℚ) : WithTop ℚ)
  | .real (.infinite negative) => some (if negative then ⊥ else (⊤ : WithTop ℚ))
  | .real .undefined => none

/-- The quantity stands for a number below an integer. -/
def Below (quantity : Quantity) (limit : Int) : Prop :=
  ∃ amount, quantity.amount? = some amount ∧ amount < ((limit : ℚ) : WithTop ℚ)

/-- The quantity stands for a number above an integer. -/
def Above (quantity : Quantity) (limit : Int) : Prop :=
  ∃ amount, quantity.amount? = some amount ∧ (((limit : ℚ) : WithTop ℚ) : WithBot _) < amount

theorem less_integer_iff_below (quantity : Quantity) (limit : Int) :
    quantity.less (.integer limit) = true ↔ quantity.Below limit := by
  unfold Below
  cases quantity with
  | integer number =>
      rw [less_integer, decide_eq_true_iff]
      simp [amount?]
  | real number =>
      rw [less, compare?, beq_iff_eq]
      cases number with
      | undefined => simp [Binary64.compareInt?, amount?]
      | infinite negative => cases negative <;> simp [Binary64.compareInt?, amount?]
      | finite negative mantissa exponent =>
          rw [Binary64.compareInt?_finite, Option.map_some, Option.some.injEq, cmp_swap,
            cmp_eq_lt_iff]
          simp [amount?]

theorem integer_less_iff_above (quantity : Quantity) (limit : Int) :
    less (.integer limit) quantity = true ↔ quantity.Above limit := by
  unfold Above
  cases quantity with
  | integer number =>
      rw [less_integer, decide_eq_true_iff]
      simp [amount?]
  | real number =>
      rw [less, compare?, beq_iff_eq]
      cases number with
      | undefined => simp [Binary64.compareInt?, amount?]
      | infinite negative =>
          have hTop : (((limit : ℚ) : WithTop ℚ) : WithBot (WithTop ℚ)) < (⊤ : WithTop ℚ) :=
            WithBot.coe_lt_coe.mpr (WithTop.coe_lt_top _)
          cases negative with
          | true => simp [Binary64.compareInt?, amount?]
          | false => simpa [Binary64.compareInt?, amount?] using hTop
      | finite negative mantissa exponent =>
          rw [Binary64.compareInt?_finite, Option.some.injEq, cmp_eq_lt_iff]
          simp [amount?]

theorem isIntegral_iff (quantity : Quantity) :
    quantity.isIntegral = true ↔
      ∃ value : Int, quantity.amount? = some ((value : ℚ) : WithTop ℚ) := by
  cases quantity with
  | integer number => simp [isIntegral, amount?]
  | real number =>
      rw [isIntegral]
      cases number with
      | undefined => simp [Binary64.isIntegral, amount?]
      | infinite negative => cases negative <;> simp [Binary64.isIntegral, amount?]
      | finite negative mantissa exponent =>
          rw [Binary64.isIntegral_finite_iff]
          simp [amount?]

end Quantity

end LogicSignature
