import LogicSignature.Text.CodePoint

/-
Digits: decimal digits of every script for reading numerals, and the decimal and hexadecimal
spelling of numbers.
-/

namespace LogicSignature

namespace CodePoint

/-- The zeros of the decimal digit runs; each run holds the ten digits in order. -/
def digitZeros : List Nat :=
  [0x30, 0x660, 0x6f0, 0x7c0, 0x966, 0x9e6, 0xa66, 0xae6, 0xb66, 0xbe6, 0xc66, 0xce6, 0xd66,
    0xde6, 0xe50, 0xed0, 0xf20, 0x1040, 0x1090, 0x17e0, 0x1810, 0x1946, 0x19d0, 0x1a80, 0x1a90,
    0x1b50, 0x1bb0, 0x1c40, 0x1c50, 0xa620, 0xa8d0, 0xa900, 0xa9d0, 0xa9f0, 0xaa50, 0xabf0,
    0xff10, 0x104a0, 0x10d30, 0x11066, 0x110f0, 0x11136, 0x111d0, 0x112f0, 0x11450, 0x114d0,
    0x11650, 0x116c0, 0x11730, 0x118e0, 0x11950, 0x11c50, 0x11d50, 0x11da0, 0x16a60, 0x16ac0,
    0x16b50, 0x1d7ce, 0x1d7d8, 0x1d7e2, 0x1d7ec, 0x1d7f6, 0x1e140, 0x1e2f0, 0x1e950, 0x1fbf0]

/-- The value of a decimal digit of any script. -/
def decimalDigit? (point : CodePoint) : Option Nat :=
  let code := point.code
  (digitZeros.find? (fun first => first ≤ code && code < first + 10)).map
    (fun first => code - first)

/-- The value of an ASCII hexadecimal digit, in either case. -/
def hexDigit? (point : CodePoint) : Option Nat :=
  let code := point.code
  if 48 ≤ code && code ≤ 57 then some (code - 48)
  else if 97 ≤ code && code ≤ 102 then some (code - 87)
  else if 65 ≤ code && code ≤ 70 then some (code - 55)
  else none

/-- The digits `0` to `9`. -/
def isAsciiDigit (point : CodePoint) : Bool := 48 ≤ point.code && point.code ≤ 57

end CodePoint

namespace Text

/-- The decimal spelling of a natural number. -/
def decimal (number : Nat) : Text := ofChars (Nat.toDigits 10 number)

/-- The decimal spelling of an integer, with a leading minus sign when it is negative. -/
def signedDecimal : Int → Text
  | .ofNat number => decimal number
  | .negSucc number => "-" ++ decimal (number + 1)

/-- Puts zeros in front until the text has the given length. -/
def padZeros (width : Nat) (text : Text) : Text :=
  List.replicate (width - text.length) (.char '0') ++ text

/-- The lower-case hexadecimal spelling of a natural number, at least `width` digits long. -/
def hex (width number : Nat) : Text := padZeros width (ofChars (Nat.toDigits 16 number))

/-- The upper-case hexadecimal spelling of a natural number, at least `width` digits long. -/
def upperHex (width number : Nat) : Text :=
  padZeros width (ofChars ((Nat.toDigits 16 number).map Char.toUpper))

/-- The hexadecimal spelling of an integer in at least two places, the minus sign counted. -/
def signedHex2 : Int → Text
  | .ofNat number => hex 2 number
  | .negSucc number => "-" ++ hex 1 (number + 1)

end Text

end LogicSignature
