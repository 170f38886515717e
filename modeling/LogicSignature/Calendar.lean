import LogicSignature.Number.Binary64
import LogicSignature.Text.Digit

/-
Dates and times of the Gregorian calendar: which days exist, the civil date and time of a moment
that is counted in microseconds from the start of 1970, and moments with the offset of a zone.
-/

namespace LogicSignature.Calendar

def isLeapYear (year : Int) : Bool := year % 4 == 0 && (year % 100 != 0 || year % 400 == 0)

/-- The number of days of a month, from one for January. -/
def daysInMonth (year : Int) (month : Nat) : Nat :=
  match month with
  | 2 => if isLeapYear year then 29 else 28
  | 4 | 6 | 9 | 11 => 30
  | _ => 31

/-- A civil date. -/
structure Date where
  year : Int
  month : Nat
  day : Nat
deriving DecidableEq, Repr

def Date.text (date : Date) : Text :=
  Text.padZeros 4 (Text.signedDecimal date.year) ++ "-"
    ++ Text.padZeros 2 (Text.decimal date.month) ++ "-" ++ Text.padZeros 2 (Text.decimal date.day)

/-- The date of a day that is counted from the start of 1970. Years are counted from March, so that
the leap day ends one. -/
def dateOfDay (day : Int) : Date :=
  let shifted := day + 719468
  let era := shifted / 146097
  let dayOfEra := shifted % 146097
  let yearOfEra :=
    (dayOfEra - dayOfEra / 1460 + dayOfEra / 36524 - dayOfEra / 146096) / 365
  let dayOfYear := dayOfEra - (365 * yearOfEra + yearOfEra / 4 - yearOfEra / 100)
  let monthFromMarch := (5 * dayOfYear + 2) / 153
  let dayOfMonth := dayOfYear - (153 * monthFromMarch + 2) / 5 + 1
  let month := if monthFromMarch < 10 then monthFromMarch + 3 else monthFromMarch - 9
  let year := yearOfEra + era * 400 + (if month ≤ 2 then 1 else 0)
  ⟨year, month.toNat, dayOfMonth.toNat⟩

/-- The number of a date, counted in days from the start of 1970. -/
def Date.dayNumber (date : Date) : Int :=
  let year := if date.month ≤ 2 then date.year - 1 else date.year
  let era := Int.fdiv year 400
  let yearOfEra := year - era * 400
  let monthFromMarch : Int := if date.month ≤ 2 then date.month + 9 else (date.month : Int) - 3
  let dayOfYear := (153 * monthFromMarch + 2) / 5 + (date.day : Int) - 1
  let dayOfEra := yearOfEra * 365 + yearOfEra / 4 - yearOfEra / 100 + dayOfYear
  era * 146097 + dayOfEra - 719468

/-- A time of day. -/
structure Time where
  hour : Nat
  minute : Nat
  second : Nat
  microsecond : Nat
deriving DecidableEq, Repr

/-- Hours, minutes and seconds. -/
def Time.clock (time : Time) : Text :=
  Text.padZeros 2 (Text.decimal time.hour) ++ ":" ++ Text.padZeros 2 (Text.decimal time.minute)
    ++ ":" ++ Text.padZeros 2 (Text.decimal time.second)

/-- The clock time, with microseconds where there are any. -/
def Time.text (time : Time) : Text :=
  if time.microsecond == 0 then time.clock
  else time.clock ++ "." ++ Text.padZeros 6 (Text.decimal time.microsecond)

/-- Microseconds of a day. -/
def dayLength : Int := 86400000000

def dateOf (moment : Int) : Date := dateOfDay (moment / dayLength)

def timeOf (moment : Int) : Time :=
  let rest := (moment % dayLength).toNat
  let seconds := rest / 1000000
  ⟨seconds / 3600, seconds / 60 % 60, seconds % 60, rest % 1000000⟩

def timestamp (moment : Int) : Text :=
  (dateOf moment).text ++ "T" ++ (timeOf moment).text ++ "+00:00"

/-- The moment that a clock shows whose reading is a number of seconds in the binary64 format. A
count of microseconds that the format cannot hold loses its last digits. -/
def clockMoment (microseconds : Int) : Int :=
  let seconds := (Binary64.ofInt microseconds).divNat 1000000
  match seconds.floor? with
  | none => microseconds
  | some whole =>
    -- The fraction is exact, and negative when the moment lies before 1970.
    let base := if microseconds < 0 && seconds.isIntegral == false then whole + 1 else whole
    let fraction := seconds.add (Binary64.ofInt (-base))
    let rest := ((fraction.mul (Binary64.ofInt 1000000)).round?).getD 0
    base * 1000000 + rest

/-! ### Moments in a zone -/

/-- A date with a time of day, and the offset of its zone in seconds if it has one. -/
structure Moment where
  date : Date
  time : Time
  offset : Option Int
deriving DecidableEq, Repr

/-- A zone offset as hours and minutes, with seconds where there are any. -/
def offsetText (offset : Int) : Text :=
  let amount := offset.natAbs
  let pad (number : Nat) : Text := Text.padZeros 2 (Text.decimal number)
  let base := (if offset < 0 then "-" else "+") ++ pad (amount / 3600) ++ ":"
    ++ pad (amount / 60 % 60)
  if amount % 60 == 0 then base else base ++ ":" ++ pad (amount % 60)

def Moment.text (moment : Moment) : Text :=
  moment.date.text ++ " " ++ moment.time.text ++ ((moment.offset.map offsetText).getD "")

/-- The count of microseconds from the start of 1970, as the clock of the zone shows it. -/
def Moment.wall (moment : Moment) : Int :=
  let time := moment.time
  moment.date.dayNumber * dayLength
    + (((time.hour * 60 + time.minute) * 60 + time.second) * 1000000 + time.microsecond : Nat)

/-- The count of microseconds from the start of 1970 in universal time. -/
def Moment.instant (moment : Moment) : Int :=
  moment.wall - (moment.offset.getD 0) * 1000000

/-- How two moments compare; a moment in a zone does not compare with one in none. -/
def Moment.compare? (left right : Moment) : Option Ordering :=
  if left.offset.isSome == right.offset.isSome then some (compare left.instant right.instant)
  else none

/-- How two dates compare. -/
def Date.compare (left right : Date) : Ordering := Ord.compare left.dayNumber right.dayNumber

end LogicSignature.Calendar
