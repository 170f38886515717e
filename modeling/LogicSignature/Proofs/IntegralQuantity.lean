import LogicSignature.Number.Quantity

/-
Quantities that are integers by value. A real without fraction compares with every integer as its
value does, however it was written.
-/

namespace LogicSignature

theorem compare_mul_right (left right : Int) {scale : Int} (hScale : 0 < scale) :
    compare (left * scale) (right * scale) = compare left right := by
  rcases Int.lt_trichotomy left right with hLess | hSame | hGreater
  · rw [Int.compare_eq_lt.mpr hLess,
      Int.compare_eq_lt.mpr (Int.mul_lt_mul_of_pos_right hLess hScale)]
  · rw [Int.compare_eq_eq.mpr hSame, Int.compare_eq_eq.mpr (by rw [hSame])]
  · rw [Int.compare_eq_gt.mpr hGreater,
      Int.compare_eq_gt.mpr (Int.mul_lt_mul_of_pos_right hGreater hScale)]

namespace Binary64

theorem units_self (negative : Bool) (mantissa : Nat) (exponent : Int) :
    units negative mantissa exponent exponent = signed negative mantissa := by
  have hOne : ((Nat.pow 2 (exponent - exponent).toNat : Nat) : Int) = 1 := by
    rw [Int.sub_self]
    rfl
  rw [units, signed, hOne, Int.mul_one]

theorem signed_mul (negative : Bool) (scale amount : Nat) :
    signed negative (scale * amount) = signed negative amount * scale := by
  cases negative with
  | false =>
      rw [Nat.mul_comm]
      exact Int.natCast_mul amount scale
  | true =>
      rw [Nat.mul_comm, signed, Int.natCast_mul]
      exact (Int.neg_mul _ _).symm

/-- An integral number of the format compares with integers as one integer does. -/
theorem exists_compareInt?_eq {number : Binary64} (hIntegral : number.isIntegral = true) :
    ∃ value : Int, ∀ other, compareInt? other number = some (compare other value) := by
  cases number with
  | undefined => cases hIntegral
  | infinite negative => cases hIntegral
  | finite negative mantissa exponent =>
      by_cases hExponent : 0 ≤ exponent
      · refine ⟨units negative mantissa exponent 0, fun other => ?_⟩
        rw [compareInt?, if_pos hExponent]
      · rw [isIntegral, if_neg hExponent, beq_iff_eq] at hIntegral
        -- The mantissa is a multiple of the unit, so the unit cancels from the comparison.
        obtain ⟨quotient, hQuotient⟩ := Nat.dvd_of_mod_eq_zero hIntegral
        have hScale : (0 : Int) < Nat.pow 2 (-exponent).toNat :=
          Int.natCast_pos.mpr (Nat.pow_pos (by decide))
        refine ⟨signed negative quotient, fun other => ?_⟩
        rw [compareInt?, if_neg hExponent, units_self, hQuotient, signed_mul,
          compare_mul_right _ _ hScale]

end Binary64

namespace Quantity

/-- The quantity compares with integers as a value does. -/
structure Amounts (quantity : Quantity) (value : Int) : Prop where
  less_integer : ∀ number : Int, less quantity (.integer number) = decide (value < number)
  same_integer : ∀ number : Int, same quantity (.integer number) = decide (value = number)

theorem exists_amounts {quantity : Quantity} (hIntegral : quantity.isIntegral = true) :
    ∃ value, Amounts quantity value := by
  cases quantity with
  | integer number => exact ⟨number, less_integer number, same_integer number⟩
  | real number =>
      obtain ⟨value, hValue⟩ := Binary64.exists_compareInt?_eq hIntegral
      have hCompare : ∀ other : Int, compare? (.real number) (.integer other) =
          some (compare value other) := by
        intro other
        rw [compare?, hValue, Option.map_some, Int.compare_swap]
      refine ⟨value, ?_, ?_⟩
      · intro other
        rw [less, hCompare, Bool.eq_iff_iff, beq_iff_eq, Option.some.injEq, Int.compare_eq_lt,
          decide_eq_true_iff]
      · intro other
        rw [same, hCompare, Bool.eq_iff_iff, beq_iff_eq, Option.some.injEq, Int.compare_eq_eq,
          decide_eq_true_iff]

end Quantity

end LogicSignature
