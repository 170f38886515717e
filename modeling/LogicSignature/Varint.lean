import LogicSignature.Text.Digit

/-
Variable-length integers: seven payload bits in each byte, the least significant group first, and
the high bit set on every byte but the last. An integer of 64 bits needs at most ten bytes, of which
the tenth carries a single bit; anything longer or wider is malformed.
-/

namespace LogicSignature.Varint

/-- The most bytes an encoding may have. -/
def maxBytes : Nat := 10

/-- The greatest number that has an encoding. -/
def maxNumber : Nat := Nat.pow 2 64 - 1

/-- What decoding finds at the start of a byte sequence. -/
inductive Outcome where
  | decoded (number length : Nat)
  | exhausted
  | malformed (examined : Nat)
deriving DecidableEq, Repr

/-- The number of a decoded outcome, zero otherwise. -/
def Outcome.number : Outcome → Nat
  | .decoded number _ => number
  | _ => 0

/-- The number of bytes used; zero when the bytes ran out, and negative when they are malformed. -/
def Outcome.length : Outcome → Int
  | .decoded _ length => length
  | .exhausted => 0
  | .malformed examined => -(examined : Int)

def Outcome.succeeded : Outcome → Bool
  | .decoded _ _ => true
  | _ => false

/-- The name of an outcome in reports. -/
def Outcome.status : Outcome → Text
  | .decoded _ _ => "ok"
  | .exhausted => "incomplete"
  | .malformed _ => "malformed"

/-- Decodes from the byte with the given index on. `number` holds the groups of the bytes before it,
and `shift` is the bit at which the next group starts. -/
def decodeFrom (index shift number : Nat) : List UInt8 → Outcome
  | [] => .exhausted
  | byte :: rest =>
    if index = maxBytes then .malformed (index + 1)
    else if byte.toNat < 0x80 then
      if index + 1 = maxBytes ∧ 1 < byte.toNat then .malformed (index + 1)
      else .decoded (number ||| byte.toNat <<< shift) (index + 1)
    else
      decodeFrom (index + 1) (shift + 7) (number ||| (byte.toNat &&& 0x7f) <<< shift) rest

/-- Decodes the integer at the start of a byte sequence. -/
def decode (bytes : List UInt8) : Outcome := decodeFrom 0 0 0 bytes

/-- Why an offset or a number is refused. -/
inductive Fault where
  | negativeOffset
  | negativeNumber
  | numberTooLarge
deriving DecidableEq, Repr

def Fault.message : Fault → Text
  | .negativeOffset => "offset must be non-negative"
  | .negativeNumber => "value must be non-negative"
  | .numberTooLarge => "value must be <= 2^64-1"

/-- Decodes the integer at an offset of a byte sequence. -/
def decodeAt (bytes : List UInt8) (offset : Int) : Except Fault Outcome :=
  if offset < 0 then .error .negativeOffset else .ok (decode (bytes.drop offset.toNat))

/-- The groups of seven bits of a number, with the continuation bit on all but the last. The bound
is the greatest number of groups. -/
def groups : Nat → Nat → List UInt8
  | 0, _ => []
  | bound + 1, number =>
    if number < 128 then [UInt8.ofNat number]
    else UInt8.ofNat (number % 128 + 128) :: groups bound (number / 128)

/-- Encodes a number of at most 64 bits. -/
def encode (number : Int) : Except Fault (List UInt8) :=
  if number < 0 then .error .negativeNumber
  else if (maxNumber : Int) < number then .error .numberTooLarge
  else .ok (groups maxBytes number.toNat)

end LogicSignature.Varint
