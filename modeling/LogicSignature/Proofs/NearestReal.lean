import Mathlib.Tactic.FieldSimp
import Mathlib.Tactic.Linarith
import Mathlib.Tactic.Positivity
import Mathlib.Tactic.Ring
import LogicSignature.Proofs.ExactQuantity

/-
Rounding to the format. The exact numbers that round to a number of the format form an interval
around it, which reaches halfway to its neighbours and contains its ends if the mantissa is even.
Whatever fraction spells an exact number in the interval, rounding it gives the number of the
format; and rounding any fraction gives a number of the format or an infinite one.
-/

namespace LogicSignature.Binary64

/-- A mantissa and an exponent of the format. The mantissa has 53 bits unless the exponent is the
least one. -/
structure Proper (mantissa : Nat) (exponent : Int) : Prop where
  mantissa_lt : mantissa < 2 ^ 53
  least_le : minExponent ≤ exponent
  le_greatest : exponent ≤ maxExponent
  full_or_least : 2 ^ 52 ≤ mantissa ∨ exponent = minExponent

/-- A number of the format. -/
def IsProper : Binary64 → Prop
  | .finite _ mantissa exponent => Proper mantissa exponent
  | _ => True

/-- How far the interval of a number reaches down, in quarters of the last place. Below a power of
two the numbers of the format are half as far apart. -/
def quartersBelow (mantissa : Nat) (exponent : Int) : Nat :=
  if mantissa == Nat.pow 2 52 && exponent > minExponent then 1 else 2

/-- An exact number lies in the interval that rounds to a number of the format. -/
structure RoundsTo (mantissa : Nat) (exponent : Int) (amount : ℚ) : Prop where
  low_le : (4 * mantissa - quartersBelow mantissa exponent) * 2 ^ (exponent - 2) ≤ amount
  le_high : amount ≤ (4 * mantissa + 2) * 2 ^ (exponent - 2)
  inside_of_odd : mantissa % 2 = 1 →
    (4 * mantissa - quartersBelow mantissa exponent) * 2 ^ (exponent - 2) < amount ∧
      amount < (4 * mantissa + 2) * 2 ^ (exponent - 2)

theorem quartersBelow_cases (mantissa : Nat) (exponent : Int) :
    quartersBelow mantissa exponent = 1 ∨ quartersBelow mantissa exponent = 2 := by
  unfold quartersBelow
  split
  · exact .inl rfl
  · exact .inr rfl

theorem quartersBelow_le_two (mantissa : Nat) (exponent : Int) :
    quartersBelow mantissa exponent ≤ 2 := by
  rcases quartersBelow_cases mantissa exponent with hOne | hTwo <;> omega

theorem eq_of_quartersBelow_eq_one {mantissa : Nat} {exponent : Int}
    (hOne : quartersBelow mantissa exponent = 1) : mantissa = 2 ^ 52 := by
  unfold quartersBelow at hOne
  split at hOne
  case isTrue hPower =>
    exact beq_iff_eq.mp (Bool.and_eq_true_iff.mp hPower).1
  case isFalse => cases hOne

theorem two_zpow_shift (exponent : Int) (places : Nat) :
    (2 : ℚ) ^ exponent = 2 ^ places * 2 ^ (exponent - places) := by
  rw [← zpow_natCast, ← zpow_add₀ two_ne_zero]
  congr 1
  omega

theorem two_zpow_add (exponent : Int) (places : Nat) :
    (2 : ℚ) ^ (exponent + places) = (2 ^ places : Nat) * 2 ^ exponent := by
  rw [zpow_add₀ two_ne_zero, zpow_natCast, mul_comm, Nat.cast_pow, Nat.cast_ofNat]

/-! ### The nearest natural number -/

/-- A natural number is the nearest to an exact one, or the even one of the two nearest. -/
structure Nearest (number : Nat) (amount : ℚ) : Prop where
  low_le : 2 * number - 1 ≤ 2 * amount
  le_high : 2 * amount ≤ 2 * number + 1
  inside_of_odd : number % 2 = 1 → 2 * number - 1 < 2 * amount ∧ 2 * amount < 2 * number + 1

section Quotients

variable {numerator denominator : Nat}

theorem roundQuotient_of_nearest (hDenominator : 0 < denominator) {number : Nat}
    (hNearest : Nearest number (numerator / denominator)) :
    roundQuotient numerator denominator = number := by
  obtain ⟨hLow, hHigh, hInside⟩ := hNearest
  have hPositive : (0 : ℚ) < denominator := Nat.cast_pos.mpr hDenominator
  have hScaled : (numerator / denominator : ℚ) * denominator = numerator :=
    div_mul_cancel₀ _ hPositive.ne'
  generalize (numerator / denominator : ℚ) = amount at *
  have hBelow : 2 * (number * denominator) ≤ 2 * numerator + denominator := by
    have : (2 * (number * denominator) : ℚ) ≤ 2 * numerator + denominator := by nlinarith
    exact_mod_cast this
  have hAbove : 2 * numerator ≤ 2 * (number * denominator) + denominator := by
    have : (2 * numerator : ℚ) ≤ 2 * (number * denominator) + denominator := by nlinarith
    exact_mod_cast this
  have hStrict : number % 2 = 1 → 2 * (number * denominator) < 2 * numerator + denominator ∧
      2 * numerator < 2 * (number * denominator) + denominator := by
    intro hOdd
    obtain ⟨hLess, hMore⟩ := hInside hOdd
    have hLess' : (2 * (number * denominator) : ℚ) < 2 * numerator + denominator := by nlinarith
    have hMore' : (2 * numerator : ℚ) < 2 * (number * denominator) + denominator := by nlinarith
    exact ⟨by exact_mod_cast hLess', by exact_mod_cast hMore'⟩
  have hDivision := Nat.div_add_mod numerator denominator
  have hRemainder := Nat.mod_lt numerator hDenominator
  rw [Nat.mul_comm] at hDivision
  unfold roundQuotient
  generalize numerator / denominator = quotient at *
  generalize numerator % denominator = remainder at *
  -- The quotient is the nearest number itself or the one before it.
  have hNotAbove : ¬ number + 1 ≤ quotient := by
    intro hMore
    have hProduct := Nat.mul_le_mul_right denominator hMore
    rw [Nat.add_mul] at hProduct
    omega
  have hNotBelow : ¬ quotient + 2 ≤ number := by
    intro hLess
    have hProduct := Nat.mul_le_mul_right denominator hLess
    rw [Nat.add_mul] at hProduct
    omega
  simp only [Bool.or_eq_true, decide_eq_true_eq, Bool.and_eq_true, beq_iff_eq]
  rcases (by omega : quotient = number ∨ number = quotient + 1) with rfl | rfl
  · rw [if_neg]
    omega
  · rw [Nat.add_mul] at hBelow hStrict
    rw [if_pos]
    omega

/-- A fraction is scaled by a power of two on the side that keeps both parts whole. -/
theorem exists_scaled (numerator : Nat) (hDenominator : 0 < denominator) (exponent : Int) :
    ∃ above below : Nat, 0 < below ∧
      (above / below : ℚ) = numerator / denominator / 2 ^ exponent ∧
      (if 0 ≤ exponent then roundQuotient numerator (denominator * Nat.pow 2 exponent.toNat)
        else roundQuotient (numerator * Nat.pow 2 (-exponent).toNat) denominator) =
          roundQuotient above below := by
  by_cases hExponent : 0 ≤ exponent
  · refine ⟨numerator, denominator * Nat.pow 2 exponent.toNat,
      Nat.mul_pos hDenominator (Nat.pow_pos (by decide)), ?_, if_pos hExponent⟩
    rw [two_zpow_of_nonneg hExponent, div_div, ← Nat.cast_mul]
  · refine ⟨_, _, hDenominator, ?_, if_neg hExponent⟩
    have hInverse : ((2 : ℚ) ^ exponent)⁻¹ = (Nat.pow 2 (-exponent).toNat : Nat) :=
      inv_eq_of_mul_eq_one_right (two_zpow_mul_of_neg hExponent)
    rw [div_eq_mul_inv _ ((2 : ℚ) ^ exponent), hInverse, div_mul_eq_mul_div, ← Nat.cast_mul]

theorem le_roundQuotient (hDenominator : 0 < denominator) {number : Nat}
    (hLow : (number : ℚ) ≤ numerator / denominator) :
    number ≤ roundQuotient numerator denominator := by
  rw [le_div_iff₀ (Nat.cast_pos.mpr hDenominator)] at hLow
  have hFloor : number ≤ numerator / denominator :=
    (Nat.le_div_iff_mul_le hDenominator).mpr (by exact_mod_cast hLow)
  unfold roundQuotient
  dsimp only
  split <;> omega

theorem roundQuotient_le (hDenominator : 0 < denominator) {number : Nat}
    (hHigh : (numerator / denominator : ℚ) < number) :
    roundQuotient numerator denominator ≤ number := by
  rw [div_lt_iff₀ (Nat.cast_pos.mpr hDenominator)] at hHigh
  have hFloor : numerator / denominator < number :=
    (Nat.div_lt_iff_lt_mul hDenominator).mpr (by exact_mod_cast hHigh)
  unfold roundQuotient
  dsimp only
  split <;> omega

/-! ### The exponent of a quotient -/

theorem two_zpow_log2_bounds {number : Nat} (hNumber : 0 < number) :
    (2 : ℚ) ^ (number.log2 : Int) ≤ number ∧ (number : ℚ) < 2 ^ (number.log2 + 1 : Int) := by
  have hLow : 2 ^ number.log2 ≤ number := Nat.log2_self_le hNumber.ne'
  have hHigh : number < 2 ^ (number.log2 + 1) := Nat.lt_log2_self
  constructor
  · rw [zpow_natCast]
    exact_mod_cast hLow
  · exact_mod_cast hHigh

theorem le_quotient_iff (numerator : Nat) (hDenominator : 0 < denominator) (exponent : Int) :
    (if 0 ≤ exponent then decide (denominator * Nat.pow 2 exponent.toNat ≤ numerator)
      else decide (denominator ≤ numerator * Nat.pow 2 (-exponent).toNat)) = true ↔
      (2 : ℚ) ^ exponent ≤ numerator / denominator := by
  have hPositive : (0 : ℚ) < denominator := Nat.cast_pos.mpr hDenominator
  rw [le_div_iff₀ hPositive]
  by_cases hExponent : 0 ≤ exponent
  · rw [if_pos hExponent, decide_eq_true_iff, two_zpow_of_nonneg hExponent, mul_comm]
    exact_mod_cast Iff.rfl
  · have hScale : (0 : ℚ) < ((Nat.pow 2 (-exponent).toNat : Nat) : ℚ) :=
      Nat.cast_pos.mpr (Nat.pow_pos (by decide))
    rw [if_neg hExponent, decide_eq_true_iff, ← mul_le_mul_iff_of_pos_right hScale, mul_right_comm,
      two_zpow_mul_of_neg hExponent, one_mul]
    exact_mod_cast Iff.rfl

/-- The quotient lies in the binade from which its exponent is computed. -/
theorem exists_binade (hNumerator : 0 < numerator) (hDenominator : 0 < denominator) :
    ∃ binade : Int, quotientExponent numerator denominator = max minExponent (binade - 52) ∧
      (2 : ℚ) ^ binade ≤ numerator / denominator ∧
      (numerator / denominator : ℚ) < 2 ^ (binade + 1) := by
  obtain ⟨hNumeratorLow, hNumeratorHigh⟩ := two_zpow_log2_bounds hNumerator
  obtain ⟨hDenominatorLow, hDenominatorHigh⟩ := two_zpow_log2_bounds hDenominator
  have hPositive : (0 : ℚ) < denominator := Nat.cast_pos.mpr hDenominator
  have hIff :=
    le_quotient_iff numerator hDenominator ((numerator.log2 : Int) - denominator.log2)
  unfold quotientExponent
  by_cases hReached :
      (2 : ℚ) ^ ((numerator.log2 : Int) - denominator.log2) ≤ numerator / denominator
  · refine ⟨_, ?_, hReached, ?_⟩
    · simp only [hIff.mpr hReached, if_true]
    · rw [div_lt_iff₀ hPositive]
      calc (numerator : ℚ) < 2 ^ (numerator.log2 + 1 : Int) := hNumeratorHigh
        _ = 2 ^ ((numerator.log2 : Int) - denominator.log2 + 1) * 2 ^ (denominator.log2 : Int) := by
          rw [← zpow_add₀ two_ne_zero]
          congr 1
          omega
        _ ≤ _ := mul_le_mul_of_nonneg_left hDenominatorLow (by positivity)
  · refine ⟨(numerator.log2 : Int) - denominator.log2 - 1, ?_, ?_, ?_⟩
    · rw [← hIff] at hReached
      simp only [hReached, Bool.false_eq_true, if_false]
    · rw [le_div_iff₀ hPositive]
      calc _ ≤ (2 : ℚ) ^ ((numerator.log2 : Int) - denominator.log2 - 1)
            * 2 ^ (denominator.log2 + 1 : Int) :=
          mul_le_mul_of_nonneg_left hDenominatorHigh.le (by positivity)
        _ = 2 ^ (numerator.log2 : Int) := by
          rw [← zpow_add₀ two_ne_zero]
          congr 1
          omega
        _ ≤ numerator := hNumeratorLow
    · rw [Int.sub_add_cancel]
      exact not_le.mp hReached

theorem quotientExponent_eq (hNumerator : 0 < numerator) (hDenominator : 0 < denominator)
    {exponent : Int} (hLeast : minExponent ≤ exponent)
    (hLow : (2 : ℚ) ^ (exponent + 52) ≤ numerator / denominator ∨ exponent = minExponent)
    (hHigh : (numerator / denominator : ℚ) < 2 ^ (exponent + 53)) :
    quotientExponent numerator denominator = exponent := by
  obtain ⟨binade, hExponent, hFrom, hTo⟩ := exists_binade hNumerator hDenominator
  have hBelow : binade < exponent + 53 :=
    (zpow_lt_zpow_iff_right₀ one_lt_two).mp (hFrom.trans_lt hHigh)
  rw [hExponent]
  rcases hLow with hLow | rfl
  · have hAbove : exponent + 52 < binade + 1 :=
      (zpow_lt_zpow_iff_right₀ one_lt_two).mp (hLow.trans_lt hTo)
    omega
  · omega

/-! ### Rounding a quotient -/

/-- The last step of rounding: a mantissa with one bit too many is halved, and a number beyond the
format is infinite. -/
def carried (negative : Bool) (mantissa : Nat) (exponent : Int) : Binary64 :=
  let rounded : Nat × Int :=
    if mantissa == Nat.pow 2 53 then (Nat.pow 2 52, exponent + 1) else (mantissa, exponent)
  if rounded.2 > maxExponent then .infinite negative else .finite negative rounded.1 rounded.2

theorem carried_of_lt (negative : Bool) {mantissa : Nat} {exponent : Int}
    (hMantissa : mantissa < 2 ^ 53) (hExponent : exponent ≤ maxExponent) :
    carried negative mantissa exponent = .finite negative mantissa exponent := by
  have hNotFull : mantissa ≠ Nat.pow 2 53 := hMantissa.ne
  simp only [carried, beq_iff_eq, hNotFull, if_false, gt_iff_lt, not_lt.mpr hExponent]

theorem carried_full (negative : Bool) {exponent : Int} (hExponent : exponent + 1 ≤ maxExponent) :
    carried negative (2 ^ 53) exponent = .finite negative (2 ^ 52) (exponent + 1) := by
  simp only [carried, Nat.pow_eq, beq_self_eq_true, if_true, gt_iff_lt, not_lt.mpr hExponent,
    if_false]

theorem isProper_carried (negative : Bool) {mantissa : Nat} {exponent : Int}
    (hMantissa : mantissa ≤ 2 ^ 53) (hLeast : minExponent ≤ exponent)
    (hFull : 2 ^ 52 ≤ mantissa ∨ exponent = minExponent) :
    (carried negative mantissa exponent).IsProper := by
  by_cases hCarry : mantissa = 2 ^ 53
  · by_cases hLarge : exponent + 1 ≤ maxExponent
    · rw [hCarry, carried_full negative hLarge]
      exact ⟨by decide, by omega, hLarge, .inl (Nat.le_refl _)⟩
    · simp only [carried, hCarry, Nat.pow_eq, beq_self_eq_true, if_true, gt_iff_lt,
        not_le.mp hLarge]
      trivial
  · by_cases hLarge : exponent ≤ maxExponent
    · rw [carried_of_lt negative (by omega) hLarge]
      exact ⟨by omega, hLeast, hLarge, hFull⟩
    · have hNotFull : mantissa ≠ Nat.pow 2 53 := hCarry
      simp only [carried, beq_iff_eq, hNotFull, if_false, gt_iff_lt, not_le.mp hLarge, if_true]
      trivial

theorem exists_ofQuotient_eq (negative : Bool) (hNumerator : 0 < numerator)
    (hDenominator : 0 < denominator) :
    ∃ above below : Nat, 0 < below ∧
      (above / below : ℚ) =
        numerator / denominator / 2 ^ quotientExponent numerator denominator ∧
      ofQuotient negative numerator denominator =
        carried negative (roundQuotient above below) (quotientExponent numerator denominator) := by
  obtain ⟨above, below, hBelow, hAmount, hRound⟩ :=
    exists_scaled numerator hDenominator (quotientExponent numerator denominator)
  refine ⟨above, below, hBelow, hAmount, ?_⟩
  unfold ofQuotient carried
  simp only [beq_iff_eq, hNumerator.ne', if_false, hRound]

theorem ofQuotient_of_nearest (negative : Bool) (hNumerator : 0 < numerator)
    (hDenominator : 0 < denominator) {number : Nat} {exponent : Int}
    (hExponent : quotientExponent numerator denominator = exponent)
    (hNearest : Nearest number (numerator / denominator / 2 ^ exponent)) :
    ofQuotient negative numerator denominator = carried negative number exponent := by
  obtain ⟨above, below, hBelow, hAmount, hRounded⟩ :=
    exists_ofQuotient_eq negative hNumerator hDenominator
  rw [hExponent] at hAmount hRounded
  rw [← hAmount] at hNearest
  rw [hRounded, roundQuotient_of_nearest hBelow hNearest]

variable {mantissa : Nat} {exponent : Int} {amount : ℚ}

/-- In units of the last place the number of the format is the nearest to its interval. -/
theorem RoundsTo.nearest (hRounds : RoundsTo mantissa exponent amount) :
    Nearest mantissa (amount / 2 ^ exponent) := by
  obtain ⟨hLow, hHigh, hInside⟩ := hRounds
  have hQuarter : (0 : ℚ) < 2 ^ (exponent - 2) := by positivity
  have hBelow : (quartersBelow mantissa exponent : ℚ) ≤ 2 := by
    exact_mod_cast quartersBelow_le_two mantissa exponent
  have hPlaces : amount = 4 * (amount / 2 ^ exponent) * 2 ^ (exponent - 2) := by
    rw [two_zpow_shift exponent 2]
    field_simp
    norm_num
  generalize amount / 2 ^ exponent = places at hPlaces ⊢
  subst hPlaces
  have hFrom := le_of_mul_le_mul_right hLow hQuarter
  have hTo := le_of_mul_le_mul_right hHigh hQuarter
  refine ⟨by linarith, by linarith, fun hOdd => ?_⟩
  have hAfter := lt_of_mul_lt_mul_right (hInside hOdd).1 hQuarter.le
  have hBefore := lt_of_mul_lt_mul_right (hInside hOdd).2 hQuarter.le
  exact ⟨by linarith, by linarith⟩

/-- Just below a power of two the mantissa is rounded up to the next binade. -/
theorem RoundsTo.nearest_below_power (hRounds : RoundsTo mantissa exponent amount)
    (hProper : Proper mantissa exponent) (hBelow : amount < 2 ^ (exponent + 52))
    (hExponent : exponent ≠ minExponent) :
    mantissa = 2 ^ 52 ∧ 2 ^ (exponent + 51) ≤ amount ∧
      Nearest (2 ^ 53) (amount / 2 ^ (exponent - 1)) := by
  obtain ⟨hLow, hHigh, -⟩ := hRounds
  have hQuarter : (0 : ℚ) < 2 ^ (exponent - 2) := by positivity
  have hFull : 2 ^ 52 ≤ mantissa := hProper.full_or_least.resolve_right hExponent
  rw [two_zpow_shift (exponent + 52) 54, show exponent + 52 - (54 : Nat) = exponent - 2 by omega]
    at hBelow
  have hMantissa : mantissa = 2 ^ 52 := by
    have hLess := lt_of_mul_lt_mul_right (hLow.trans_lt hBelow) hQuarter.le
    have hMost : (quartersBelow mantissa exponent : ℚ) ≤ 2 := by
      exact_mod_cast quartersBelow_le_two mantissa exponent
    have hSmall : (mantissa : ℚ) < 2 ^ 52 + 1 := by linarith
    have : mantissa < 2 ^ 52 + 1 := by exact_mod_cast hSmall
    omega
  have hOne : quartersBelow mantissa exponent = 1 := by
    have hMore : exponent > minExponent := by
      have := hProper.least_le
      omega
    rw [hMantissa, quartersBelow, decide_eq_true hMore]
    rfl
  rw [hOne, hMantissa] at hLow
  push_cast at hLow
  refine ⟨hMantissa, ?_, ?_⟩
  · rw [two_zpow_shift (exponent + 51) 53, show exponent + 51 - (53 : Nat) = exponent - 2 by omega]
    nlinarith
  · have hHalves : amount = 2 * (amount / 2 ^ (exponent - 1)) * 2 ^ (exponent - 2) := by
      rw [two_zpow_shift (exponent - 1) 1, show exponent - 1 - (1 : Nat) = exponent - 2 by omega]
      field_simp
    generalize amount / 2 ^ (exponent - 1) = halves at hHalves ⊢
    subst hHalves
    have hFrom := le_of_mul_le_mul_right hLow hQuarter
    have hTo := lt_of_mul_lt_mul_right hBelow hQuarter.le
    refine ⟨?_, ?_, fun hOdd => absurd hOdd (by decide)⟩
    · push_cast
      linarith
    · push_cast
      linarith

theorem ofQuotient_of_roundsTo (negative : Bool) (hNumerator : 0 < numerator)
    (hDenominator : 0 < denominator) (hProper : Proper mantissa exponent)
    (hRounds : RoundsTo mantissa exponent (numerator / denominator)) :
    ofQuotient negative numerator denominator = .finite negative mantissa exponent := by
  by_cases hBinade :
      (2 : ℚ) ^ (exponent + 52) ≤ numerator / denominator ∨ exponent = minExponent
  · have hHigh : (numerator / denominator : ℚ) < 2 ^ (exponent + 53) := by
      have hQuarter : (0 : ℚ) < 2 ^ (exponent - 2) := by positivity
      have hBound : (mantissa : ℚ) + 1 ≤ 2 ^ 53 := by exact_mod_cast hProper.mantissa_lt
      rw [two_zpow_shift (exponent + 53) 55,
        show exponent + 53 - (55 : Nat) = exponent - 2 by omega]
      calc _ ≤ (4 * mantissa + 2) * (2 : ℚ) ^ (exponent - 2) := hRounds.le_high
        _ < _ := mul_lt_mul_of_pos_right (by linarith) hQuarter
    have hExponent :=
      quotientExponent_eq hNumerator hDenominator hProper.least_le hBinade hHigh
    rw [ofQuotient_of_nearest negative hNumerator hDenominator hExponent hRounds.nearest,
      carried_of_lt negative hProper.mantissa_lt hProper.le_greatest]
  · obtain ⟨hBelow, hNotLeast⟩ := not_or.mp hBinade
    obtain ⟨rfl, hLow, hNearest⟩ :=
      hRounds.nearest_below_power hProper (not_le.mp hBelow) hNotLeast
    have hLeast := hProper.least_le
    have hExponent : quotientExponent numerator denominator = exponent - 1 := by
      apply quotientExponent_eq hNumerator hDenominator (by omega)
      · rw [show exponent - 1 + 52 = exponent + 51 by omega]
        exact .inl hLow
      · rw [show exponent - 1 + 53 = exponent + 52 by omega]
        exact not_le.mp hBelow
    have hGreatest := hProper.le_greatest
    rw [ofQuotient_of_nearest negative hNumerator hDenominator hExponent hNearest,
      carried_full negative (by omega), Int.sub_add_cancel]

/-! ### Rounding gives numbers of the format -/

theorem isProper_zero (negative : Bool) : (zero negative).IsProper :=
  ⟨by decide, by decide, by decide, .inr rfl⟩

theorem isProper_ofQuotient (negative : Bool) (numerator : Nat) (hDenominator : 0 < denominator) :
    (ofQuotient negative numerator denominator).IsProper := by
  by_cases hNumerator : numerator = 0
  · rw [ofQuotient, if_pos (beq_iff_eq.mpr hNumerator)]
    exact isProper_zero negative
  · have hPositive := Nat.pos_of_ne_zero hNumerator
    obtain ⟨above, below, hBelow, hAmount, hRounded⟩ :=
      exists_ofQuotient_eq negative hPositive hDenominator
    obtain ⟨binade, hExponent, hFrom, hTo⟩ := exists_binade hPositive hDenominator
    rw [hRounded]
    generalize quotientExponent numerator denominator = exponent at *
    apply isProper_carried
    · apply roundQuotient_le hBelow
      rw [hAmount, div_lt_iff₀ (by positivity)]
      calc (numerator / denominator : ℚ) < 2 ^ (binade + 1) := hTo
        _ ≤ 2 ^ (exponent + 53) := zpow_le_zpow_right₀ one_le_two (by omega)
        _ = (2 ^ 53 : Nat) * 2 ^ exponent := two_zpow_add exponent 53
    · omega
    · by_cases hLeast : exponent = minExponent
      · exact .inr hLeast
      · apply Or.inl
        apply le_roundQuotient hBelow
        rw [hAmount, le_div_iff₀ (by positivity)]
        calc ((2 ^ 52 : Nat) : ℚ) * 2 ^ exponent = 2 ^ (exponent + 52) :=
              (two_zpow_add exponent 52).symm
          _ = 2 ^ binade := by
            congr 1
            omega
          _ ≤ numerator / denominator := hFrom

end Quotients

/-! ### Rounding a decimal -/

theorem digitCount_bounds {number : Nat} (hNumber : 0 < number) :
    (10 : ℚ) ^ ((digitCount number : Int) - 1) ≤ number ∧
      (number : ℚ) < 10 ^ (digitCount number : Int) := by
  have hCount : 0 < digitCount number := Nat.length_toDigits_pos
  have hHigh : number < 10 ^ digitCount number :=
    (Nat.length_toDigits_le_iff (by decide) hCount).mp (Nat.le_refl _)
  have hLow : 10 ^ (digitCount number - 1) ≤ number := by
    by_cases hOne : digitCount number - 1 = 0
    · rw [hOne]
      exact hNumber
    · apply Nat.le_of_not_lt
      intro hLess
      have hShort := (Nat.length_toDigits_le_iff (by decide) (by omega)).mpr hLess
      rw [digitCount] at hCount hShort
      omega
  rw [show (digitCount number : Int) - 1 = (digitCount number - 1 : Nat) by omega, zpow_natCast,
    zpow_natCast]
  exact ⟨by exact_mod_cast hLow, by exact_mod_cast hHigh⟩

theorem two_zpow_le_ten_zpow {exponent power : Int} (hPower : 0 ≤ power)
    (hExponent : exponent ≤ 3 * power) : (2 : ℚ) ^ exponent ≤ 10 ^ power := by
  calc (2 : ℚ) ^ exponent ≤ 2 ^ (3 * power) := zpow_le_zpow_right₀ one_le_two hExponent
    _ = (2 ^ (3 : Int)) ^ power := zpow_mul 2 3 power
    _ ≤ 10 ^ power := zpow_le_zpow_left₀ hPower (by positivity) (by norm_num)

theorem ten_zpow_le_two_zpow {exponent power : Int} (hPower : power ≤ 0)
    (hExponent : 3 * power ≤ exponent) : (10 : ℚ) ^ power ≤ 2 ^ exponent := by
  have hInverse : (2 : ℚ) ^ (-exponent) ≤ 10 ^ (-power) :=
    two_zpow_le_ten_zpow (by omega) (by omega)
  rw [zpow_neg, zpow_neg] at hInverse
  exact (inv_le_inv₀ (by positivity) (by positivity)).mp hInverse

section Decimals

variable {mantissa : Nat} {exponent : Int} {amount : ℚ}

/-- Every number of the format that is not zero lies far inside the powers of ten that are decided
by their size alone. -/
theorem RoundsTo.bounds (hRounds : RoundsTo mantissa exponent amount)
    (hProper : Proper mantissa exponent) (hMantissa : 0 < mantissa) :
    (10 : ℚ) ^ (-359 : Int) ≤ amount ∧ amount < 10 ^ (342 : Int) := by
  have hLeast : (-1074 : Int) ≤ exponent := hProper.least_le
  have hGreatest : exponent ≤ 971 := hProper.le_greatest
  have hOne : (1 : ℚ) ≤ mantissa := by exact_mod_cast hMantissa
  have hBound : (mantissa : ℚ) + 1 ≤ 2 ^ 53 := by exact_mod_cast hProper.mantissa_lt
  have hMost : (quartersBelow mantissa exponent : ℚ) ≤ 2 := by
    exact_mod_cast quartersBelow_le_two mantissa exponent
  constructor
  · calc (10 : ℚ) ^ (-359 : Int) ≤ 2 ^ (exponent - 2) :=
          ten_zpow_le_two_zpow (by decide) (by omega)
      _ ≤ (4 * mantissa - quartersBelow mantissa exponent) * 2 ^ (exponent - 2) :=
          le_mul_of_one_le_left (by positivity) (by linarith)
      _ ≤ amount := hRounds.low_le
  · calc amount ≤ (4 * mantissa + 2) * 2 ^ (exponent - 2) := hRounds.le_high
      _ < 2 ^ 55 * 2 ^ (exponent - 2) :=
          mul_lt_mul_of_pos_right (by linarith) (by positivity)
      _ = 2 ^ (exponent + 53) := by
          rw [two_zpow_shift (exponent + 53) 55]
          congr 2
          omega
      _ ≤ 10 ^ (342 : Int) := two_zpow_le_ten_zpow (by decide) (by omega)

theorem digits_pos_of_roundsTo {digits : Nat} {power : Int} (hProper : Proper mantissa exponent)
    (hMantissa : 0 < mantissa) (hRounds : RoundsTo mantissa exponent (digits * 10 ^ power)) :
    0 < digits := by
  have hFrom := (hRounds.bounds hProper hMantissa).1
  apply Nat.pos_of_ne_zero
  rintro rfl
  rw [Nat.cast_zero, zero_mul] at hFrom
  exact absurd hFrom (not_le.mpr (by positivity))

theorem ofDecimal_of_roundsTo (negative : Bool) {digits : Nat} {power : Int}
    (hProper : Proper mantissa exponent) (hMantissa : 0 < mantissa)
    (hRounds : RoundsTo mantissa exponent (digits * 10 ^ power)) :
    ofDecimal negative digits power = .finite negative mantissa exponent := by
  obtain ⟨hFrom, hTo⟩ := hRounds.bounds hProper hMantissa
  have hDigits := digits_pos_of_roundsTo hProper hMantissa hRounds
  obtain ⟨hLow, hHigh⟩ := digitCount_bounds hDigits
  have hPower : (0 : ℚ) < 10 ^ power := by positivity
  have hNotLarge : (digitCount digits : Int) - 1 + power < 342 := by
    apply (zpow_lt_zpow_iff_right₀ (a := (10 : ℚ)) (by norm_num)).mp
    rw [zpow_add₀ (by norm_num)]
    exact (mul_le_mul_of_nonneg_right hLow hPower.le).trans_lt hTo
  have hNotSmall : -359 < (digitCount digits : Int) + power := by
    apply (zpow_lt_zpow_iff_right₀ (a := (10 : ℚ)) (by norm_num)).mp
    rw [zpow_add₀ (by norm_num) (digitCount digits : Int)]
    exact hFrom.trans_lt (mul_lt_mul_of_pos_right hHigh hPower)
  unfold ofDecimal
  simp only [beq_iff_eq, hDigits.ne', if_false]
  rw [if_neg (by omega), if_neg (by omega)]
  by_cases hNonnegative : 0 ≤ power
  · obtain ⟨places, rfl⟩ := Int.eq_ofNat_of_zero_le hNonnegative
    rw [if_pos hNonnegative]
    apply ofQuotient_of_roundsTo negative _ Nat.one_pos hProper
    · simpa using hRounds
    · exact Nat.mul_pos hDigits (Nat.pow_pos (by decide))
  · obtain ⟨places, hPlaces⟩ := Int.eq_ofNat_of_zero_le (by omega : 0 ≤ -power)
    obtain rfl : power = -places := by omega
    rw [if_neg hNonnegative]
    apply ofQuotient_of_roundsTo negative hDigits (Nat.pow_pos (by decide)) hProper
    simpa [div_eq_mul_inv] using hRounds

theorem isProper_ofDecimal (negative : Bool) (digits : Nat) (power : Int) :
    (ofDecimal negative digits power).IsProper := by
  unfold ofDecimal
  split
  case isTrue => exact isProper_zero negative
  case isFalse =>
    dsimp only
    split
    case isTrue => trivial
    case isFalse =>
      split
      case isTrue => exact isProper_zero negative
      case isFalse =>
        split
        case isTrue => exact isProper_ofQuotient negative _ Nat.one_pos
        case isFalse => exact isProper_ofQuotient negative _ (Nat.pow_pos (by decide))

end Decimals

end LogicSignature.Binary64
