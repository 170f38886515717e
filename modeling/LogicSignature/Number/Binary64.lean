/-
Binary floating-point numbers of 64 bits, as exact data. A finite number is
`± mantissa · 2 ^ exponent`; operations compute the exact result and round it to the nearest
number, a tie to the even mantissa.
-/

namespace LogicSignature

inductive Binary64 where
  | finite (negative : Bool) (mantissa : Nat) (exponent : Int)
  | infinite (negative : Bool)
  | undefined
deriving DecidableEq, Repr

namespace Binary64

/-- The least exponent of a finite number. -/
def minExponent : Int := -1074

/-- The greatest exponent of a finite number. -/
def maxExponent : Int := 971

def zero (negative : Bool) : Binary64 := .finite negative 0 minExponent

/-- The quotient rounded to the nearest natural number, a half to the even neighbour. -/
def roundQuotient (numerator denominator : Nat) : Nat :=
  let quotient := numerator / denominator
  let twice := 2 * (numerator % denominator)
  if twice > denominator || (twice == denominator && quotient % 2 == 1) then quotient + 1
  else quotient

/-- The exponent that gives the quotient a mantissa of 53 bits, or the least exponent. -/
def quotientExponent (numerator denominator : Nat) : Int :=
  let estimate : Int := (numerator.log2 : Int) - (denominator.log2 : Int)
  let reached :=
    if 0 ≤ estimate then decide (denominator * Nat.pow 2 estimate.toNat ≤ numerator)
    else decide (denominator ≤ numerator * Nat.pow 2 (-estimate).toNat)
  max minExponent ((if reached then estimate else estimate - 1) - 52)

def ofQuotient (negative : Bool) (numerator denominator : Nat) : Binary64 :=
  if numerator == 0 then zero negative
  else
    let exponent := quotientExponent numerator denominator
    let mantissa :=
      if 0 ≤ exponent then roundQuotient numerator (denominator * Nat.pow 2 exponent.toNat)
      else roundQuotient (numerator * Nat.pow 2 (-exponent).toNat) denominator
    let (mantissa, exponent) :=
      if mantissa == Nat.pow 2 53 then (Nat.pow 2 52, exponent + 1) else (mantissa, exponent)
    if exponent > maxExponent then .infinite negative else .finite negative mantissa exponent

/-- The number nearest to an integer. -/
def ofInt (number : Int) : Binary64 := ofQuotient (number < 0) number.natAbs 1

def digitCount (number : Nat) : Nat := (Nat.toDigits 10 number).length

/-- The number nearest to `± digits · 10 ^ power`. Powers far outside the format are decided by
their size alone. -/
def ofDecimal (negative : Bool) (digits : Nat) (power : Int) : Binary64 :=
  if digits == 0 then zero negative
  else
    let magnitude := power + digitCount digits
    if magnitude > 400 then .infinite negative
    else if magnitude < -400 then zero negative
    else if 0 ≤ power then ofQuotient negative (digits * Nat.pow 10 power.toNat) 1
    else ofQuotient negative digits (Nat.pow 10 (-power).toNat)

/-- The number nearest to `units · 2 ^ exponent`. A zero result is positive unless `zeroSign`. -/
def ofUnits (zeroSign : Bool) (units : Int) (exponent : Int) : Binary64 :=
  if units == 0 then zero zeroSign
  else if 0 ≤ exponent then ofQuotient (units < 0) (units.natAbs * Nat.pow 2 exponent.toNat) 1
  else ofQuotient (units < 0) units.natAbs (Nat.pow 2 (-exponent).toNat)

/-- A finite magnitude in units of `2 ^ base`, where `base` is at most its exponent. -/
def units (negative : Bool) (mantissa : Nat) (exponent base : Int) : Int :=
  let amount : Int := mantissa * Nat.pow 2 (exponent - base).toNat
  if negative then -amount else amount

def add : Binary64 → Binary64 → Binary64
  | .undefined, _ => .undefined
  | _, .undefined => .undefined
  | .infinite left, .infinite right => if left == right then .infinite left else .undefined
  | .infinite left, .finite _ _ _ => .infinite left
  | .finite _ _ _, .infinite right => .infinite right
  | .finite leftSign leftMantissa leftExponent, .finite rightSign rightMantissa rightExponent =>
    let base := min leftExponent rightExponent
    ofUnits (leftSign && rightSign)
      (units leftSign leftMantissa leftExponent base
        + units rightSign rightMantissa rightExponent base) base

def signed (negative : Bool) (amount : Nat) : Int := if negative then -(amount : Int) else amount

def mul : Binary64 → Binary64 → Binary64
  | .undefined, _ => .undefined
  | _, .undefined => .undefined
  | .infinite left, .infinite right => .infinite (left != right)
  | .infinite left, .finite right mantissa _ =>
    if mantissa == 0 then .undefined else .infinite (left != right)
  | .finite left mantissa _, .infinite right =>
    if mantissa == 0 then .undefined else .infinite (left != right)
  | .finite leftSign leftMantissa leftExponent, .finite rightSign rightMantissa rightExponent =>
    let negative := leftSign != rightSign
    ofUnits negative (signed negative (leftMantissa * rightMantissa)) (leftExponent + rightExponent)

/-- The number with the other sign. -/
def neg : Binary64 → Binary64
  | .finite negative mantissa exponent => .finite (!negative) mantissa exponent
  | .infinite negative => .infinite (!negative)
  | .undefined => .undefined

/-- The quotient by a positive natural number. -/
def divNat (number : Binary64) (divisor : Nat) : Binary64 :=
  match number with
  | .finite negative mantissa exponent =>
    if 0 ≤ exponent then ofQuotient negative (mantissa * Nat.pow 2 exponent.toNat) divisor
    else ofQuotient negative mantissa (divisor * Nat.pow 2 (-exponent).toNat)
  | other => other

/-- The greatest integer that is at most the number, for a finite number. -/
def floor? : Binary64 → Option Int
  | .finite negative mantissa exponent =>
    if 0 ≤ exponent then some (signed negative (mantissa * Nat.pow 2 exponent.toNat))
    else some (Int.fdiv (signed negative mantissa) (Nat.pow 2 (-exponent).toNat))
  | _ => none

/-- The integer nearest to the number, a half to the even neighbour, for a finite number. -/
def round? : Binary64 → Option Int
  | .finite negative mantissa exponent =>
    if 0 ≤ exponent then some (signed negative (mantissa * Nat.pow 2 exponent.toNat))
    else some (signed negative (roundQuotient mantissa (Nat.pow 2 (-exponent).toNat)))
  | _ => none

def isIntegral : Binary64 → Bool
  | .finite _ mantissa exponent =>
    if 0 ≤ exponent then true else mantissa % Nat.pow 2 (-exponent).toNat == 0
  | _ => false

/-- How an exact comparison of two numbers ends; `none` when one of them is undefined. -/
def compare? : Binary64 → Binary64 → Option Ordering
  | .undefined, _ => none
  | _, .undefined => none
  | .infinite left, .infinite right =>
    some (if left == right then .eq else if left then .lt else .gt)
  | .infinite left, .finite _ _ _ => some (if left then .lt else .gt)
  | .finite _ _ _, .infinite right => some (if right then .gt else .lt)
  | .finite leftSign leftMantissa leftExponent, .finite rightSign rightMantissa rightExponent =>
    let base := min leftExponent rightExponent
    some (compare (units leftSign leftMantissa leftExponent base)
      (units rightSign rightMantissa rightExponent base))

/-- An exact comparison of an integer with a number. -/
def compareInt? (number : Int) : Binary64 → Option Ordering
  | .undefined => none
  | .infinite negative => some (if negative then .gt else .lt)
  | .finite negative mantissa exponent =>
    if 0 ≤ exponent then some (compare number (units negative mantissa exponent 0))
    else
      some (compare (number * Nat.pow 2 (-exponent).toNat)
        (units negative mantissa exponent exponent))

end Binary64

end LogicSignature
