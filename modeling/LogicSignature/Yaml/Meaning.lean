import LogicSignature.Data.Display
import LogicSignature.Text.LowerCase
import LogicSignature.Yaml.Fault
import LogicSignature.Yaml.Plain

/-
The meaning of YAML scalars: the atom that the content of a scalar stands for, by the type of the
scalar. A tag may give a scalar a type whose form it does not have, so every content is possible.
-/

namespace LogicSignature.Yaml.Meaning

/-- Text without underscores. -/
def withoutLines (content : Text) : Text := content.filter (fun point => point != .char '_')

/-! ### Integers -/

def numeralIn (base : Nat) (digits : Text) : Except Fault Int :=
  match Numeral.parseIn base digits with
  | .ok number => .ok number
  | .error fault => .error (.misfit (.numeral fault))

/-- The parts of a number in base sixty, added up. -/
def sexagesimalInteger : List Text → Int → Except Fault Int
  | [], total => .ok total
  | part :: rest, total =>
    match numeralIn 10 part with
    | .error fault => .error fault
    | .ok number => sexagesimalInteger rest (total * 60 + number)

/-- The integer that a scalar stands for. -/
def integer (content : Text) : Except Fault Int :=
  let (negative, digits) := Numeral.takeSign (withoutLines content)
  let magnitude : Except Fault Int :=
    match digits with
    | [] => .error (.misfit .missingNumeral)
    | [.char '0'] => .ok 0
    | .char '0' :: .char 'b' :: rest => numeralIn 2 rest
    | .char '0' :: .char 'x' :: rest => numeralIn 16 rest
    | .char '0' :: _ => numeralIn 8 digits
    | _ =>
      if digits.contains (.char ':') then sexagesimalInteger (Text.splitOn ':' digits) 0
      else numeralIn 10 digits
  match magnitude with
  | .error fault => .error fault
  | .ok number => .ok (if negative then -number else number)

/-! ### Reals -/

def isDecimal (point : CodePoint) : Bool := point.decimalDigit?.isSome

def decimalNumber (digits : Text) : Nat :=
  Numeral.ofDigits 10 (digits.filterMap CodePoint.decimalDigit?)

/-- The exponent of a real numeral: nothing, or a mark, an optional sign and digits. -/
def exponent? (text : Text) : Option Int :=
  match text with
  | [] => some 0
  | .char 'e' :: rest =>
    let (negative, digits) := Numeral.takeSign rest
    if Plain.allOf isDecimal digits then some (Binary64.signed negative (decimalNumber digits))
    else none
  | _ => none

/-- The real that an unsigned numeral in lower case stands for. -/
def unsignedReal? (negative : Bool) (body : Text) : Option Binary64 :=
  let whole := body.takeWhile isDecimal
  let behind := body.dropWhile isDecimal
  let (fraction, tail) : Text × Text :=
    match behind with
    | .char '.' :: rest => (rest.takeWhile isDecimal, rest.dropWhile isDecimal)
    | rest => ([], rest)
  if whole.isEmpty && fraction.isEmpty then
    if body == "inf" || body == "infinity" then some (.infinite negative)
    else if body == "nan" then some .undefined
    else none
  else
    (exponent? tail).map fun power =>
      Binary64.ofDecimal negative (decimalNumber (whole ++ fraction)) (power - fraction.length)

/-- The real that a numeral in lower case stands for, with blanks around it and a sign. -/
def realNumeral? (text : Text) : Option Binary64 :=
  let (negative, body) := Numeral.takeSign (Text.stripBy Numeral.isMargin text)
  unsignedReal? negative body

def realNumeral (text : Text) : Except Fault Binary64 :=
  match realNumeral? text with
  | some number => .ok number
  | none => .error (.misfit (.realNumeral text))

def realNumerals : List Text → Except Fault (List Binary64)
  | [] => .ok []
  | part :: rest =>
    match realNumeral part with
    | .error fault => .error fault
    | .ok number =>
      match realNumerals rest with
      | .error fault => .error fault
      | .ok others => .ok (number :: others)

/-- The parts of a real in base sixty, added up from the last one. A weight beyond the reals is a
misfit. -/
def sexagesimalReal : List Binary64 → Nat → Binary64 → Except Fault Binary64
  | [], _, total => .ok total
  | part :: rest, weight, total =>
    match Binary64.ofInt weight with
    | .infinite _ => .error (.misfit .realOverflow)
    | factor => sexagesimalReal rest (weight * 60) (total.add (part.mul factor))

/-- The real that a scalar stands for. -/
def real (content : Text) : Except Fault Binary64 :=
  let whole := (withoutLines content).lower
  let (negative, body) := Numeral.takeSign whole
  let magnitude : Except Fault Binary64 :=
    if whole.isEmpty then .error (.misfit .missingNumeral)
    else if body == ".inf" then .ok (.infinite false)
    else if body == ".nan" then .ok .undefined
    else if body.contains (.char ':') then
      match realNumerals (Text.splitOn ':' body) with
      | .error fault => .error fault
      | .ok parts => sexagesimalReal parts.reverse 1 (.zero false)
    else realNumeral body
  match magnitude with
  | .error fault => .error fault
  | .ok number => .ok (if negative then number.neg else number)

/-! ### Truth values and timestamps -/

/-- The truth value that a word stands for. -/
def truth (content : Text) : Except Fault Bool :=
  let word := content.lower
  if word == "yes" || word == "true" || word == "on" then .ok true
  else if word == "no" || word == "false" || word == "off" then .ok false
  else .error (.misfit (.truthWord word))

/-- The date of a timestamp, if it exists. -/
def dateOf (stamp : Plain.Stamp) : Except Fault Calendar.Date :=
  let month := Plain.numberOf stamp.month
  let day := Plain.numberOf stamp.day
  if stamp.year == 0 then .error (.misfit (.year stamp.year))
  else if month == 0 || month > 12 then .error (.misfit .month)
  else if day == 0 || day > Calendar.daysInMonth stamp.year month then .error (.misfit .day)
  else .ok ⟨stamp.year, month, day⟩

/-- The zone offset of a timestamp in seconds; it stays below a day. -/
def offsetOf (stamp : Plain.Stamp) : Except Fault (Option Int) :=
  match stamp.zone with
  | none => .ok none
  | some none => .ok (some 0)
  | some (some (negative, hours, minutes)) =>
    let offset := Binary64.signed negative ((hours * 60 + minutes) * 60)
    if 86400 ≤ offset.natAbs then .error (.misfit (.zoneOffset (Atom.spanText offset)))
    else .ok (some offset)

/-- The date or moment that a scalar stands for. -/
def timestamp (content : Text) : Except Fault Atom :=
  match Plain.stamp? (Plain.withoutLineEnd content) with
  | none => .error (.misfit .timestamp)
  | some stamp =>
    match stamp.time with
    | none =>
      match dateOf stamp with
      | .error fault => .error fault
      | .ok date => .ok (.date date)
    | some (hour, minute, second) =>
      match offsetOf stamp with
      | .error fault => .error fault
      | .ok offset =>
        match dateOf stamp with
        | .error fault => .error fault
        | .ok date =>
          if hour > 23 then .error (.misfit .hour)
          else if minute > 59 then .error (.misfit .minute)
          else if second > 59 then .error (.misfit .second)
          else
            let micro := Plain.numberOf ((stamp.fraction ++ Text.repeated 6 '0').take 6)
            .ok (.moment ⟨date, ⟨hour, minute, second, micro⟩, offset⟩)

/-! ### Byte strings -/

/-- The value of a base-64 digit. -/
def sixBits? (point : CodePoint) : Option Nat :=
  let code := point.code
  if 65 ≤ code && code ≤ 90 then some (code - 65)
  else if 97 ≤ code && code ≤ 122 then some (code - 71)
  else if 48 ≤ code && code ≤ 57 then some (code + 4)
  else if point == '+' then some 62
  else if point == '/' then some 63
  else none

/-- Decodes base-64 text. `filled` digits of the current group of four are in `bits`; code points
outside the alphabet are skipped. -/
def base64 : Text → Nat → Nat → Nat → Option (List UInt8)
  | [], filled, _, _ => if filled == 0 then some [] else none
  | point :: rest, filled, bits, pads =>
    if point == '=' then
      if 2 ≤ filled && 4 ≤ filled + pads + 1 then some [] else base64 rest filled bits (pads + 1)
    else
      match sixBits? point with
      | none => base64 rest filled bits pads
      | some value =>
        match filled with
        | 0 => base64 rest 1 value 0
        | 1 =>
          (base64 rest 2 (value % 16) 0).map (UInt8.ofNat (bits * 4 + value / 16) :: ·)
        | 2 => (base64 rest 3 (value % 4) 0).map (UInt8.ofNat (bits * 16 + value / 4) :: ·)
        | _ => (base64 rest 0 0 0).map (UInt8.ofNat (bits * 64 + value) :: ·)

/-- The bytes that a scalar stands for. -/
def binary (content : Text) : Except Fault (List UInt8) :=
  if content.all (fun point => decide (point.code < 128)) then
    match base64 content 0 0 0 with
    | some bytes => .ok bytes
    | none => .error .malformed
  else .error .malformed

/-- The atom that a scalar of a type stands for. -/
def atom (tag : Tag) (content : Text) : Except Fault Atom :=
  match tag with
  | .null => .ok .null
  | .boolean => (truth content).map .boolean
  | .integer => (integer content).map .integer
  | .real => (real content).map .real
  | .binary => (binary content).map .bytes
  | .timestamp => timestamp content
  | .text => .ok (.text content)
  | _ => .error .malformed

end LogicSignature.Yaml.Meaning
