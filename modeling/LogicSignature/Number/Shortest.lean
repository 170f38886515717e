import LogicSignature.Number.Binary64
import LogicSignature.Text.Digit

/-
The shortest decimal text of a binary64 number: the fewest digits that read back as the number,
and of those the nearest to it. Numbers with a decimal point position from -3 to 16 are written
positionally, all others with an exponent of at least two digits.
-/

namespace LogicSignature.Binary64

/-- A positive number as `digits · 10 ^ power`. -/
structure DecimalForm where
  digits : Nat
  power : Int
deriving DecidableEq, Repr

/-- The number of places before the decimal point of `numerator / denominator`, negative when zeros
follow the point. The bound limits the search below one. -/
def pointPosition (numerator denominator : Nat) : Int :=
  if denominator ≤ numerator then digitCount (numerator / denominator)
  else search 400 1 (numerator * 10)
where
  search : Nat → Nat → Nat → Int
    | 0, steps, _ => 1 - (steps : Int)
    | bound + 1, steps, scaled =>
      if denominator ≤ scaled then 1 - (steps : Int) else search bound (steps + 1) (scaled * 10)

/-- A decimal grid: the number, the ends of the interval that rounds to it, and the grid unit, all
over one denominator. -/
structure Grid where
  value : Nat
  low : Nat
  high : Nat
  unit : Nat
  closed : Bool

def Grid.holds (grid : Grid) (candidate : Nat) : Bool :=
  let point := candidate * grid.unit
  if grid.closed then decide (grid.low ≤ point) && decide (point ≤ grid.high)
  else decide (grid.low < point) && decide (point < grid.high)

/-- The grid point in the interval that is nearest to the number, if there is one. -/
def Grid.nearest? (grid : Grid) : Option Nat :=
  let below := grid.value / grid.unit
  let above := below + 1
  match grid.holds below, grid.holds above with
  | false, false => none
  | true, false => some below
  | false, true => some above
  | true, true =>
    let toBelow := grid.value - below * grid.unit
    let toAbove := above * grid.unit - grid.value
    if toBelow < toAbove then some below
    else if toAbove < toBelow then some above
    else if below % 2 == 0 then some below else some above

/-- The grid with unit `10 ^ power` for the positive number `mantissa · 2 ^ exponent`, in quarters
of its last place. -/
def gridAt (mantissa : Nat) (exponent : Int) (power : Int) : Grid :=
  let quarter := exponent - 2
  let binaryUp := if 0 ≤ quarter then Nat.pow 2 quarter.toNat else 1
  let binaryDown := if 0 ≤ quarter then 1 else Nat.pow 2 (-quarter).toNat
  let decimalUp := if 0 ≤ power then 1 else Nat.pow 10 (-power).toNat
  let decimalDown := if 0 ≤ power then Nat.pow 10 power.toNat else 1
  let factor := binaryUp * decimalUp
  let below := if mantissa == Nat.pow 2 52 && exponent > minExponent then 1 else 2
  { value := 4 * mantissa * factor
    low := (4 * mantissa - below) * factor
    high := (4 * mantissa + 2) * factor
    unit := binaryDown * decimalDown
    closed := mantissa % 2 == 0 }

/-- The first grid, from one digit on, that has a point in the interval. -/
def searchGrids (mantissa : Nat) (exponent : Int) (position : Int) : Nat → Nat → DecimalForm
  | 0, places => ⟨mantissa, position - places⟩
  | bound + 1, places =>
    let power := position - (places : Int)
    match (gridAt mantissa exponent power).nearest? with
    | some digits => ⟨digits, power⟩
    | none => searchGrids mantissa exponent position bound (places + 1)

def shortest (mantissa : Nat) (exponent : Int) : DecimalForm :=
  let numerator := if 0 ≤ exponent then mantissa * Nat.pow 2 exponent.toNat else mantissa
  let denominator := if 0 ≤ exponent then 1 else Nat.pow 2 (-exponent).toNat
  searchGrids mantissa exponent (pointPosition numerator denominator) 17 1

def dropTrailingZeros (digits : List Char) : List Char :=
  (digits.reverse.dropWhile (· == '0')).reverse

/-- The text of `0.digits · 10 ^ point`, where the digits neither start nor end with zero. -/
def layout (digits : List Char) (point : Int) : Text :=
  if -4 < point && point ≤ 16 then
    if point ≤ 0 then "0." ++ Text.ofChars (List.replicate (-point).toNat '0' ++ digits)
    else if (digits.length : Int) ≤ point then
      Text.ofChars (digits ++ List.replicate (point.toNat - digits.length) '0') ++ ".0"
    else Text.ofChars (digits.take point.toNat) ++ "." ++ Text.ofChars (digits.drop point.toNat)
  else
    let mantissa : Text :=
      match digits with
      | [] => "0"
      | [digit] => Text.ofChars [digit]
      | digit :: rest => Text.ofChars (digit :: '.' :: rest)
    let exponent := point - 1
    mantissa ++ "e" ++ (if exponent < 0 then "-" else "+")
      ++ Text.padZeros 2 (Text.decimal exponent.natAbs)

/-- The text of a number: shortest digits, `inf` and `nan` for the others. -/
def text : Binary64 → Text
  | .undefined => "nan"
  | .infinite negative => if negative then "-inf" else "inf"
  | .finite negative mantissa exponent =>
    let sign : Text := if negative then "-" else ""
    if mantissa == 0 then sign ++ "0.0"
    else
      let form := shortest mantissa exponent
      let all := Nat.toDigits 10 form.digits
      sign ++ layout (dropTrailingZeros all) ((all.length : Int) + form.power)

end LogicSignature.Binary64
