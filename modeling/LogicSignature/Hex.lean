import LogicSignature.Text.Blank
import LogicSignature.Text.Digit

/-
Hexadecimal text of bytes: pairs of digits in either case, with ASCII blanks before, between and
after pairs but not inside one, and an optional leading `0x`.
-/

namespace LogicSignature.Hex

/-- The bytes of digit pairs. -/
def pairs : Text → Option (List UInt8)
  | [] => some []
  | [point] => if point.isAsciiBlank then some [] else none
  | first :: second :: rest =>
    if first.isAsciiBlank then pairs (second :: rest)
    else
      match first.hexDigit?, second.hexDigit?, pairs rest with
      | some high, some low, some others => some (UInt8.ofNat (high * 16 + low) :: others)
      | _, _, _ => none

def isMarked (text : Text) : Bool :=
  match text with
  | .char '0' :: mark :: _ => mark == 'x' || mark == 'X'
  | _ => false

/-- The text without its leading mark. -/
def unmarked (text : Text) : Text := if isMarked text then text.drop 2 else text

/-- The bytes that a text spells. -/
def parse? (text : Text) : Option (List UInt8) := pairs (unmarked text)

def byteText (byte : UInt8) : Text := Text.hex 2 byte.toNat

/-- The lower-case text of bytes, without mark and blanks. -/
def encode (bytes : List UInt8) : Text := bytes.flatMap byteText

end LogicSignature.Hex
