import LogicSignature.Number.Numeral
import LogicSignature.Text.Utf8

/-
Faults of YAML reading. A text that breaks the rules of the format is malformed. A scalar that has
the form of its type may still stand for no value: a date that does not exist, a number without
digits. Nor does a mapping stand for a scalar when its value key leads back to itself.
-/

namespace LogicSignature.Yaml

/-- A scalar that stands for no value of its type. -/
inductive Misfit where
  | numeral (fault : Numeral.Fault)
  | realNumeral (text : Text)
  | realOverflow
  | truthWord (text : Text)
  | missingNumeral
  | timestamp
  | timestampParts
  | year (number : Nat)
  | month
  | day
  | hour
  | minute
  | second
  | zoneOffset (shown : Text)
  | codePoint
  | codePointSize
  | endless
deriving DecidableEq, Repr

def Misfit.message : Misfit → Text
  | .numeral fault => fault.message
  | .realNumeral text => "could not convert string to float: " ++ text.quoted
  | .realOverflow => "int too large to convert to float"
  | .truthWord text => text.quoted
  | .missingNumeral => "string index out of range"
  | .timestamp => "'NoneType' object has no attribute 'groupdict'"
  | .timestampParts => "expected string or bytes-like object, got 'list'"
  | .year number => "year " ++ Text.decimal number ++ " is out of range"
  | .month => "month must be in 1..12"
  | .day => "day is out of range for month"
  | .hour => "hour must be in 0..23"
  | .minute => "minute must be in 0..59"
  | .second => "second must be in 0..59"
  | .zoneOffset shown =>
    "offset must be a timedelta strictly between -timedelta(hours=24) and timedelta(hours=24), not "
      ++ shown ++ "."
  | .codePoint => "chr() arg not in range(0x110000)"
  | .codePointSize => "Python int too large to convert to C int"
  | .endless => "maximum recursion depth exceeded"

/-- Why a text gives no data. -/
inductive Fault where
  | malformed
  | misfit (cause : Misfit)
  | undecodable (fault : Utf8.Fault)
deriving DecidableEq, Repr

end LogicSignature.Yaml
