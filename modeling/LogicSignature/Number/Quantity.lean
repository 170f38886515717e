import LogicSignature.Number.Shortest

/-
Quantities: the numbers of a document, which keep whether they were written as integers or as
reals. Comparison is exact across the two; a sum with a real is a real.
-/

namespace LogicSignature

/-- An integer, or a real of the binary64 format. -/
inductive Quantity where
  | integer (number : Int)
  | real (number : Binary64)
deriving DecidableEq, Repr

namespace Quantity

def text : Quantity → Text
  | .integer number => Text.signedDecimal number
  | .real number => number.text

/-- How an exact comparison ends; `none` when one side is undefined. -/
def compare? : Quantity → Quantity → Option Ordering
  | .integer left, .integer right => some (compare left right)
  | .integer left, .real right => Binary64.compareInt? left right
  | .real left, .integer right => (Binary64.compareInt? right left).map Ordering.swap
  | .real left, .real right => Binary64.compare? left right

/-- Strictly less, exactly. -/
def less (left right : Quantity) : Bool := compare? left right == some .lt

/-- Equal as numbers. -/
def same (left right : Quantity) : Bool := compare? left right == some .eq

@[simp]
theorem less_integer (left right : Int) :
    less (.integer left) (.integer right) = decide (left < right) := by
  have hCompare : compare? (.integer left) (.integer right) = some (compare left right) := rfl
  rw [less, hCompare, Bool.eq_iff_iff, beq_iff_eq, Option.some.injEq, Int.compare_eq_lt,
    decide_eq_true_iff]

@[simp]
theorem same_integer (left right : Int) :
    same (.integer left) (.integer right) = decide (left = right) := by
  have hCompare : compare? (.integer left) (.integer right) = some (compare left right) := rfl
  rw [same, hCompare, Bool.eq_iff_iff, beq_iff_eq, Option.some.injEq, Int.compare_eq_eq,
    decide_eq_true_iff]

def isIntegral : Quantity → Bool
  | .integer _ => true
  | .real number => number.isIntegral

/-- The sum. An integer too large for the format has no sum with a real. -/
def add? : Quantity → Quantity → Option Quantity
  | .integer left, .integer right => some (.integer (left + right))
  | .integer left, .real right =>
    match Binary64.ofInt left with
    | .infinite _ => none
    | left => some (.real (left.add right))
  | .real left, .integer right =>
    match Binary64.ofInt right with
    | .infinite _ => none
    | right => some (.real (left.add right))
  | .real left, .real right => some (.real (left.add right))

@[simp]
theorem add?_integer (left right : Int) :
    add? (.integer left) (.integer right) = some (.integer (left + right)) := rfl

end Quantity

end LogicSignature
