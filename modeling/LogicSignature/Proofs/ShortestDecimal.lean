import LogicSignature.Number.Shortest
import LogicSignature.Proofs.NearestReal

/-
The shortest decimal of a number of the format. A grid point is taken only from the interval that
rounds to the number, and the grid of seventeen digits always has one there, so the decimal rounds
to the number.
-/

namespace LogicSignature.Binary64

/-! ### The parts of a grid as exact numbers -/

theorem zpow_eq_fraction (base : Nat) (hBase : 0 < base) (power : Int) :
    ((if 0 ≤ power then Nat.pow base power.toNat else 1 : Nat) : ℚ) =
        base ^ power * (if 0 ≤ power then 1 else Nat.pow base (-power).toNat : Nat) ∧
      0 < (if 0 ≤ power then 1 else Nat.pow base (-power).toNat) := by
  have hNotZero : (base : ℚ) ≠ 0 := Nat.cast_ne_zero.mpr hBase.ne'
  by_cases hPower : 0 ≤ power
  · obtain ⟨places, rfl⟩ := Int.eq_ofNat_of_zero_le hPower
    simp
  · obtain ⟨places, hPlaces⟩ := Int.eq_ofNat_of_zero_le (by omega : 0 ≤ -power)
    obtain rfl : power = -places := by omega
    simp only [if_neg hPower, Int.neg_neg, Int.toNat_natCast, Nat.pow_eq]
    refine ⟨?_, Nat.pow_pos hBase⟩
    rw [Nat.cast_one, Nat.cast_pow, ← zpow_natCast, ← zpow_add₀ hNotZero, Int.add_left_neg,
      zpow_zero]

section Grids

variable {mantissa : Nat} {exponent power : Int}

theorem exists_gridScale (hMantissa : 0 < mantissa) (exponent power : Int) :
    ∃ scale : ℚ, 0 < scale ∧
      ((gridAt mantissa exponent power).value : ℚ) =
        4 * mantissa * 2 ^ (exponent - 2) * scale ∧
      ((gridAt mantissa exponent power).low : ℚ) =
        (4 * mantissa - quartersBelow mantissa exponent) * 2 ^ (exponent - 2) * scale ∧
      ((gridAt mantissa exponent power).high : ℚ) =
        (4 * mantissa + 2) * 2 ^ (exponent - 2) * scale ∧
      ((gridAt mantissa exponent power).unit : ℚ) = 10 ^ power * scale := by
  obtain ⟨hBinary, hBinaryDown⟩ := zpow_eq_fraction 2 (by decide) (exponent - 2)
  obtain ⟨hDecimal, hDecimalUp⟩ := zpow_eq_fraction 10 (by decide) power
  have hBelow : quartersBelow mantissa exponent ≤ 4 * mantissa :=
    (quartersBelow_le_two mantissa exponent).trans (by omega)
  simp only [gridAt]
  generalize (if 0 ≤ exponent - 2 then Nat.pow 2 (exponent - 2).toNat else 1) = binaryUp at *
  generalize (if 0 ≤ exponent - 2 then 1 else Nat.pow 2 (-(exponent - 2)).toNat) = binaryDown at *
  generalize (if 0 ≤ power then Nat.pow 10 power.toNat else 1) = decimalDown at *
  generalize (if 0 ≤ power then 1 else Nat.pow 10 (-power).toNat) = decimalUp at *
  refine ⟨binaryDown * decimalUp, ?_, ?_, ?_, ?_, ?_⟩
  · exact mul_pos (Nat.cast_pos.mpr hBinaryDown) (Nat.cast_pos.mpr hDecimalUp)
  · rw [Nat.cast_mul, Nat.cast_mul binaryUp, hBinary]
    push_cast
    ring
  · change
      (((4 * mantissa - quartersBelow mantissa exponent) * (binaryUp * decimalUp) : Nat) : ℚ) = _
    rw [Nat.cast_mul, Nat.cast_mul binaryUp, hBinary, Nat.cast_sub hBelow]
    push_cast
    ring
  · rw [Nat.cast_mul, Nat.cast_mul binaryUp, hBinary]
    push_cast
    ring
  · rw [Nat.cast_mul, hDecimal]
    push_cast
    ring

theorem holds_gridAt_iff (hMantissa : 0 < mantissa) (candidate : Nat) :
    (gridAt mantissa exponent power).holds candidate = true ↔
      RoundsTo mantissa exponent (candidate * 10 ^ power) := by
  obtain ⟨scale, hScale, -, hLow, hHigh, hUnit⟩ := exists_gridScale hMantissa exponent power
  have hPoint : ((candidate * (gridAt mantissa exponent power).unit : Nat) : ℚ) =
      candidate * 10 ^ power * scale := by
    rw [Nat.cast_mul, hUnit, mul_assoc]
  have hClosed : (gridAt mantissa exponent power).closed = (mantissa % 2 == 0) := rfl
  unfold Grid.holds
  rw [hClosed]
  simp only [← Nat.cast_le (α := ℚ), ← Nat.cast_lt (α := ℚ), hPoint, hLow, hHigh,
    mul_le_mul_iff_of_pos_right hScale, mul_lt_mul_iff_of_pos_right hScale]
  by_cases hEven : mantissa % 2 = 0
  · simp only [hEven, beq_self_eq_true, if_true, Bool.and_eq_true, decide_eq_true_eq]
    constructor
    · rintro ⟨hFrom, hTo⟩
      exact ⟨hFrom, hTo, fun hOdd => absurd hOdd (by omega)⟩
    · exact fun hRounds => ⟨hRounds.low_le, hRounds.le_high⟩
  · simp only [beq_iff_eq, hEven, if_false, Bool.and_eq_true, decide_eq_true_eq]
    constructor
    · rintro ⟨hFrom, hTo⟩
      exact ⟨hFrom.le, hTo.le, fun _ => ⟨hFrom, hTo⟩⟩
    · exact fun hRounds => hRounds.inside_of_odd (by omega)

theorem Grid.holds_of_nearest? {grid : Grid} {digits : Nat}
    (hNearest : grid.nearest? = some digits) : grid.holds digits = true := by
  unfold Grid.nearest? at hNearest
  cases hBelow : grid.holds (grid.value / grid.unit) <;>
    cases hAbove : grid.holds (grid.value / grid.unit + 1) <;>
    simp only [hBelow, hAbove] at hNearest
  · cases hNearest
  · cases hNearest
    exact hAbove
  · cases hNearest
    exact hBelow
  · split at hNearest
    · cases hNearest
      exact hBelow
    · split at hNearest
      · cases hNearest
        exact hAbove
      · split at hNearest
        · cases hNearest
          exact hBelow
        · cases hNearest
          exact hAbove

theorem Grid.exists_nearest? {grid : Grid}
    (hHolds : grid.holds (grid.value / grid.unit) = true ∨
      grid.holds (grid.value / grid.unit + 1) = true) :
    ∃ digits, grid.nearest? = some digits := by
  apply Option.ne_none_iff_exists'.mp
  intro hNone
  unfold Grid.nearest? at hNone
  cases hBelow : grid.holds (grid.value / grid.unit) <;>
    cases hAbove : grid.holds (grid.value / grid.unit + 1) <;>
    simp only [hBelow, hAbove] at hNone hHolds
  · simp at hHolds
  · cases hNone
  · cases hNone
  · split at hNone
    · cases hNone
    · split at hNone
      · cases hNone
      · split at hNone <;> cases hNone

/-- The two grid points next to the number enclose it. -/
theorem gridAt_encloses (hMantissa : 0 < mantissa) (exponent power : Int) :
    ∃ below : Nat,
      below = (gridAt mantissa exponent power).value / (gridAt mantissa exponent power).unit ∧
      (below * 10 ^ power : ℚ) ≤ 4 * mantissa * 2 ^ (exponent - 2) ∧
      4 * mantissa * 2 ^ (exponent - 2) < ((below + 1 : Nat) * 10 ^ power : ℚ) := by
  obtain ⟨scale, hScale, hValue, -, -, hUnit⟩ := exists_gridScale hMantissa exponent power
  generalize (gridAt mantissa exponent power).value = value at *
  generalize (gridAt mantissa exponent power).unit = unit at *
  have hPositive : 0 < unit := by
    have : (0 : ℚ) < unit := by
      rw [hUnit]
      positivity
    exact_mod_cast this
  refine ⟨value / unit, rfl, ?_, ?_⟩
  · apply le_of_mul_le_mul_right _ hScale
    rw [← hValue, mul_assoc, ← hUnit]
    exact_mod_cast Nat.div_mul_le_self value unit
  · apply lt_of_mul_lt_mul_right _ hScale.le
    rw [← hValue, mul_assoc, ← hUnit]
    exact_mod_cast Nat.lt_mul_of_div_lt (Nat.lt_succ_self _) hPositive

/-- A grid has a point in the interval when its unit is smaller than the last place, and smaller
than half of it where the interval is narrower. -/
theorem exists_nearest?_gridAt (hMantissa : 0 < mantissa)
    (hUnit : (10 : ℚ) ^ power < 4 * 2 ^ (exponent - 2))
    (hNarrow : quartersBelow mantissa exponent = 1 → (10 : ℚ) ^ power < 2 * 2 ^ (exponent - 2)) :
    ∃ digits, (gridAt mantissa exponent power).nearest? = some digits := by
  apply Grid.exists_nearest?
  obtain ⟨below, hBelow, hFrom, hTo⟩ := gridAt_encloses hMantissa exponent power
  rw [← hBelow, holds_gridAt_iff hMantissa, holds_gridAt_iff hMantissa]
  have hQuarter : (0 : ℚ) < 2 ^ (exponent - 2) := by positivity
  have hNext : ((below + 1 : Nat) * 10 ^ power : ℚ) = below * 10 ^ power + 10 ^ power := by
    push_cast
    ring
  have hInside : ∀ amount : ℚ,
      (4 * mantissa - quartersBelow mantissa exponent) * 2 ^ (exponent - 2) < amount →
      amount < (4 * mantissa + 2) * 2 ^ (exponent - 2) → RoundsTo mantissa exponent amount :=
    fun amount hLow hHigh => ⟨hLow.le, hHigh.le, fun _ => ⟨hLow, hHigh⟩⟩
  rw [hNext] at hTo ⊢
  generalize (below * 10 ^ power : ℚ) = left at *
  generalize (10 : ℚ) ^ power = unit at *
  generalize (2 : ℚ) ^ (exponent - 2) = quarter at *
  rcases quartersBelow_cases mantissa exponent with hOne | hTwo
  · -- The point above the number is near enough, on the wide side of the interval.
    have hSmall := hNarrow hOne
    rw [hOne] at hInside
    refine .inr (hInside _ ?_ ?_)
    · push_cast
      nlinarith
    · nlinarith
  · -- One of the two points is nearer than half of the last place.
    rw [hTwo] at hInside
    by_cases hNear : 4 * mantissa * quarter - left < 2 * quarter
    · refine .inl (hInside _ ?_ ?_)
      · push_cast
        linarith
      · nlinarith
    · refine .inr (hInside _ ?_ ?_)
      · push_cast
        nlinarith
      · linarith

end Grids

/-! ### The search for a grid -/

section Position

variable {numerator denominator : Nat}

theorem ten_zpow_search_le (hDenominator : 0 < denominator) :
    ∀ bound steps : Nat, (10 : ℚ) ^ (-(steps + bound : Nat) : Int) ≤ numerator / denominator →
      (10 : ℚ) ^ (pointPosition.search denominator bound steps (numerator * 10 ^ steps) - 1) ≤
        numerator / denominator := by
  intro bound
  induction bound with
  | zero =>
      intro steps hReached
      rwa [pointPosition.search, show 1 - (steps : Int) - 1 = -(steps + 0 : Nat) by omega]
  | succ bound ih =>
      intro steps hReached
      rw [pointPosition.search]
      by_cases hHere : denominator ≤ numerator * 10 ^ steps
      · rw [if_pos hHere, show 1 - (steps : Int) - 1 = -steps by omega, zpow_neg, zpow_natCast,
          le_div_iff₀ (Nat.cast_pos.mpr hDenominator), inv_mul_le_iff₀ (by positivity), mul_comm]
        exact_mod_cast hHere
      · rw [if_neg hHere, Nat.mul_assoc, ← Nat.pow_succ]
        apply ih
        rwa [Nat.succ_add]

theorem ten_zpow_pointPosition_le (hDenominator : 0 < denominator)
    (hReached : (10 : ℚ) ^ (-401 : Int) ≤ numerator / denominator) :
    (10 : ℚ) ^ (pointPosition numerator denominator - 1) ≤ numerator / denominator := by
  have hPositive : (0 : ℚ) < denominator := Nat.cast_pos.mpr hDenominator
  unfold pointPosition
  by_cases hWhole : denominator ≤ numerator
  · have hQuotient : 0 < numerator / denominator := Nat.div_pos hWhole hDenominator
    rw [if_pos hWhole, le_div_iff₀ hPositive]
    calc _ ≤ ((numerator / denominator : Nat) : ℚ) * denominator :=
          mul_le_mul_of_nonneg_right (digitCount_bounds hQuotient).1 hPositive.le
      _ ≤ numerator := by exact_mod_cast Nat.div_mul_le_self numerator denominator
  · rw [if_neg hWhole]
    simpa only [Nat.pow_one] using ten_zpow_search_le hDenominator 400 1 hReached

end Position

section Search

variable {mantissa : Nat} {exponent : Int}

theorem searchGrids_roundsTo (hMantissa : 0 < mantissa) (position : Int) :
    ∀ bound places : Nat,
      (∃ digits, (gridAt mantissa exponent (position - (places + bound : Nat))).nearest? =
        some digits) →
      RoundsTo mantissa exponent
        ((searchGrids mantissa exponent position (bound + 1) places).digits *
          10 ^ (searchGrids mantissa exponent position (bound + 1) places).power) := by
  intro bound
  induction bound with
  | zero =>
      rintro places ⟨digits, hDigits⟩
      rw [Nat.add_zero] at hDigits
      rw [searchGrids, hDigits]
      exact (holds_gridAt_iff hMantissa digits).mp (Grid.holds_of_nearest? hDigits)
  | succ bound ih =>
      intro places hFine
      rw [searchGrids]
      cases hHere : (gridAt mantissa exponent (position - (places : Int))).nearest? with
      | some digits => exact (holds_gridAt_iff hMantissa digits).mp (Grid.holds_of_nearest? hHere)
      | none =>
          apply ih
          rwa [Nat.add_assoc, Nat.add_comm 1]

/-- The search starts at a position that is not above that of the number. -/
theorem exists_position (hProper : Proper mantissa exponent) (hMantissa : 0 < mantissa) :
    ∃ position, shortest mantissa exponent = searchGrids mantissa exponent position 17 1 ∧
      (10 : ℚ) ^ (position - 1) ≤ mantissa * 2 ^ exponent := by
  refine ⟨_, rfl, ?_⟩
  obtain ⟨hFraction, hDenominator⟩ := zpow_eq_fraction 2 (by decide) exponent
  have hNumerator : (if 0 ≤ exponent then mantissa * Nat.pow 2 exponent.toNat else mantissa) =
      mantissa * (if 0 ≤ exponent then Nat.pow 2 exponent.toNat else 1) := by
    split <;> simp
  rw [hNumerator]
  generalize (if 0 ≤ exponent then Nat.pow 2 exponent.toNat else 1) = up at *
  generalize (if 0 ≤ exponent then 1 else Nat.pow 2 (-exponent).toNat) = denominator at *
  have hAmount : ((mantissa * up : Nat) : ℚ) / denominator = mantissa * 2 ^ exponent := by
    rw [Nat.cast_mul, hFraction, ← mul_assoc,
      mul_div_cancel_right₀ _ (Nat.cast_ne_zero.mpr hDenominator.ne')]
    rfl
  have hOne : (1 : ℚ) ≤ mantissa := by exact_mod_cast hMantissa
  have hLeast : -1074 ≤ exponent := hProper.least_le
  rw [← hAmount]
  apply ten_zpow_pointPosition_le hDenominator
  calc (10 : ℚ) ^ (-401 : Int) ≤ 2 ^ exponent := ten_zpow_le_two_zpow (by decide) (by omega)
    _ ≤ mantissa * 2 ^ exponent := le_mul_of_one_le_left (by positivity) hOne
    _ = (mantissa * up : Nat) / denominator := hAmount.symm

theorem shortest_roundsTo (hProper : Proper mantissa exponent) (hMantissa : 0 < mantissa) :
    RoundsTo mantissa exponent
      ((shortest mantissa exponent).digits * 10 ^ (shortest mantissa exponent).power) := by
  obtain ⟨position, hShortest, hPosition⟩ := exists_position hProper hMantissa
  rw [hShortest]
  apply searchGrids_roundsTo hMantissa position 16 1
  -- Seventeen digits make the unit smaller than the last place, since 2 ^ 53 < 10 ^ 16.
  have hQuarter : (0 : ℚ) < 2 ^ (exponent - 2) := by positivity
  have hUnit : (10 : ℚ) ^ (position - (1 + 16 : Nat)) * 10 ^ 16 ≤
      mantissa * (4 * 2 ^ (exponent - 2)) := by
    have hPlace : (2 : ℚ) ^ exponent = 2 ^ 2 * 2 ^ (exponent - 2) := two_zpow_shift exponent 2
    rw [← zpow_natCast (10 : ℚ) 16, ← zpow_add₀ (by norm_num)]
    rw [hPlace] at hPosition
    convert hPosition using 2
    · omega
    · norm_num
  apply exists_nearest?_gridAt hMantissa
  · have hBound : (mantissa : ℚ) ≤ 2 ^ 53 := by exact_mod_cast hProper.mantissa_lt.le
    nlinarith
  · intro hNarrow
    have hPower : (mantissa : ℚ) = 2 ^ 52 := by exact_mod_cast eq_of_quartersBelow_eq_one hNarrow
    rw [hPower] at hUnit
    linarith

end Search

end LogicSignature.Binary64
