import LogicSignature.Number.Quantity
import LogicSignature.Text.Blank
import LogicSignature.Text.Quoted

/-
Integer numerals in free text: blanks around, an optional sign, digits of any script with single
underscores between them. A numeral in base two, eight or sixteen may name its base in front of the
digits. Only so many decimal digits are read, and only so many are written.
-/

namespace LogicSignature.Numeral

/-- The most decimal digits that are read or written. -/
def digitLimit : Nat := 4300

/-- Why a text is no numeral, or a number has none. -/
inductive Fault where
  | malformed (base : Nat) (text : Text)
  | tooManyDigits (count : Nat)
  | tooLong
deriving DecidableEq, Repr

/-- The message for a malformed numeral shows at most 200 code points of the quoted text. -/
def Fault.message : Fault → Text
  | .malformed base text =>
    "invalid literal for int() with base " ++ Text.decimal base ++ ": "
      ++ (Text.quoted text).take 200
  | .tooManyDigits count =>
    "Exceeds the limit (4300 digits) for integer string conversion: value has "
      ++ Text.decimal count
      ++ " digits; use sys.set_int_max_str_digits() to increase the limit"
  | .tooLong =>
    "Exceeds the limit (4300 digits) for integer string conversion; "
      ++ "use sys.set_int_max_str_digits() to increase the limit"

/-- The least number with too many digits to be written. -/
def writableBound : Nat := Nat.pow 10 digitLimit

/-- Whether the decimal digits of a number are few enough to be written. -/
def isWritable (number : Int) : Bool := number.natAbs < writableBound

/-- Whether a quantity can be written; a real always can. -/
def isWritableQuantity : Quantity → Bool
  | .integer number => isWritable number
  | .real _ => true

/-- The value of a digit of a base: a decimal digit of any script, or an ASCII letter. -/
def digit? (base : Nat) (point : CodePoint) : Option Nat :=
  match point.decimalDigit? <|> point.hexDigit? with
  | some digit => if digit < base then some digit else none
  | none => none

/-- The digits of a numeral, in order; an underscore stands only between two digits. -/
def digits? (base : Nat) : Text → Option (List Nat)
  | [] => none
  | [point] => (digit? base point).map (fun digit => [digit])
  | point :: .char '_' :: rest => do
    let digit ← digit? base point
    let others ← digits? base rest
    return digit :: others
  | point :: rest => do
    let digit ← digit? base point
    let others ← digits? base rest
    return digit :: others

def ofDigits (base : Nat) (digits : List Nat) : Nat :=
  digits.foldl (fun number digit => base * number + digit) 0

/-- Blanks around a numeral: the ASCII blanks and the blanks outside ASCII. -/
def isMargin (point : CodePoint) : Bool := point.isAsciiBlank || point.isWideBlank

/-- Splits off the sign. -/
def takeSign : Text → Bool × Text
  | .char '-' :: rest => (true, rest)
  | .char '+' :: rest => (false, rest)
  | text => (false, text)

def baseLetter? : Nat → Option Char
  | 2 => some 'b'
  | 8 => some 'o'
  | 16 => some 'x'
  | _ => none

/-- Drops a zero and the letter of the base, in either case, and an underscore behind them. -/
def dropBase (base : Nat) (text : Text) : Text :=
  match text, baseLetter? base with
  | .char '0' :: .char mark :: rest, some letter =>
    if mark.toLower == letter then
      match rest with
      | .char '_' :: digits => digits
      | digits => digits
    else text
  | _, _ => text

/-- Reads a numeral of a base. Too many decimal digits are a fault whatever follows them. -/
def parseIn (base : Nat) (text : Text) : Except Fault Int :=
  let (negative, body) := takeSign (text.dropWhile isMargin)
  let unprefixed := dropBase base body
  let inRun (point : CodePoint) : Bool := (digit? base point).isSome || point == '_'
  match digits? base (unprefixed.takeWhile inRun) with
  | none => .error (.malformed base text)
  | some digits =>
    if (baseLetter? base).isNone && digits.length > digitLimit then
      .error (.tooManyDigits digits.length)
    else if ((unprefixed.dropWhile inRun).dropWhile isMargin).isEmpty then
      .ok (Binary64.signed negative (ofDigits base digits))
    else .error (.malformed base text)

/-- Reads a decimal numeral. -/
def parse (text : Text) : Except Fault Int := parseIn 10 text

end LogicSignature.Numeral
