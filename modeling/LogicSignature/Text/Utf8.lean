import LogicSignature.Text.Quoted

/-
UTF-8: decoding with the exact place and reason of a fault, and encoding. A decoding fault covers
the longest beginning of a character that the encoding allows, so the reason tells whether the next
byte is wrong or missing. A half of a surrogate pair has no encoding; in names, the 128 halves from
`0xDC80` on stand for the bytes from `0x80` on, which lets a name hold any bytes.
-/

namespace LogicSignature.Utf8

/-- Why a byte sequence is not UTF-8. -/
inductive Reason where
  | invalidStart
  | invalidContinuation
  | unexpectedEnd
deriving DecidableEq, Repr

def Reason.text : Reason → Text
  | .invalidStart => "invalid start byte"
  | .invalidContinuation => "invalid continuation byte"
  | .unexpectedEnd => "unexpected end of data"

/-- A fault at a position: the offending bytes and the reason. -/
structure Fault where
  position : Nat
  firstByte : UInt8
  width : Nat
  reason : Reason
deriving DecidableEq, Repr

def Fault.message (fault : Fault) : Text :=
  if fault.width ≤ 1 then
    "'utf-8' codec can't decode byte 0x" ++ Text.hex 2 fault.firstByte.toNat ++ " in position "
      ++ Text.decimal fault.position ++ ": " ++ fault.reason.text
  else
    "'utf-8' codec can't decode bytes in position " ++ Text.decimal fault.position ++ "-"
      ++ Text.decimal (fault.position + fault.width - 1) ++ ": " ++ fault.reason.text

/-- What a leading byte announces: the number of continuation bytes, the bounds of the first of
them, and the payload bits of the leading byte. -/
structure Lead where
  continuation : Nat
  low : Nat
  high : Nat
  payload : Nat

def lead? (byte : Nat) : Option Lead :=
  if byte < 0x80 then some ⟨0, 0x80, 0xBF, byte⟩
  else if byte < 0xC2 then none
  else if byte < 0xE0 then some ⟨1, 0x80, 0xBF, byte - 0xC0⟩
  else if byte == 0xE0 then some ⟨2, 0xA0, 0xBF, 0⟩
  else if byte == 0xED then some ⟨2, 0x80, 0x9F, 13⟩
  else if byte < 0xF0 then some ⟨2, 0x80, 0xBF, byte - 0xE0⟩
  else if byte == 0xF0 then some ⟨3, 0x90, 0xBF, 0⟩
  else if byte < 0xF4 then some ⟨3, 0x80, 0xBF, byte - 0xF0⟩
  else if byte == 0xF4 then some ⟨3, 0x80, 0x8F, 4⟩
  else none

/-- Outcome of reading continuation bytes: the code point and the rest, or the number of bytes that
were good and the reason for stopping. -/
inductive Tail where
  | complete (code : Nat) (rest : List UInt8)
  | broken (good : Nat) (reason : Reason)

/-- Reads `count` continuation bytes; the first one has its own bounds. -/
def tail (low high : Nat) : Nat → Nat → Nat → List UInt8 → Tail
  | 0, code, _, rest => .complete code rest
  | _ + 1, _, good, [] => .broken good .unexpectedEnd
  | count + 1, code, good, byte :: rest =>
    if low ≤ byte.toNat && byte.toNat ≤ high then
      tail 0x80 0xBF count (code * 64 + (byte.toNat - 0x80)) (good + 1) rest
    else .broken good .invalidContinuation

/-- Decodes with an explicit step bound and the position of the next byte; the bound is the number
of bytes left. -/
def decodeFrom : Nat → Nat → List UInt8 → List Char → Except Fault (List Char)
  | 0, _, _, done => .ok done.reverse
  | _ + 1, _, [], done => .ok done.reverse
  | bound + 1, position, byte :: rest, done =>
    match lead? byte.toNat with
    | none => .error ⟨position, byte, 1, .invalidStart⟩
    | some lead =>
      match tail lead.low lead.high lead.continuation lead.payload 0 rest with
      | .broken good reason => .error ⟨position, byte, good + 1, reason⟩
      | .complete code after =>
        decodeFrom bound (position + lead.continuation + 1) after (Char.ofNat code :: done)

/-- The text of a byte sequence, or the first fault. -/
def decode (bytes : List UInt8) : Except Fault (List Char) :=
  decodeFrom (bytes.length + 1) 0 bytes []

/-- Line ends of any convention become line feeds. -/
def normaliseLines : List Char → List Char
  | [] => []
  | '\r' :: '\n' :: rest => '\n' :: normaliseLines rest
  | '\r' :: rest => '\n' :: normaliseLines rest
  | character :: rest => character :: normaliseLines rest

/-! ### Encoding -/

/-- The bytes of the code point with a number. -/
def encodeCode (code : Nat) : List UInt8 :=
  if code < 0x80 then [code.toUInt8]
  else if code < 0x800 then [(0xC0 + code / 64).toUInt8, (0x80 + code % 64).toUInt8]
  else if code < 0x10000 then
    [(0xE0 + code / 4096).toUInt8, (0x80 + code / 64 % 64).toUInt8, (0x80 + code % 64).toUInt8]
  else
    [(0xF0 + code / 262144).toUInt8, (0x80 + code / 4096 % 64).toUInt8,
      (0x80 + code / 64 % 64).toUInt8, (0x80 + code % 64).toUInt8]

/-- A run of halves that cannot be encoded: where it starts, its first half and its length. -/
structure EncodeFault where
  position : Nat
  first : CodePoint
  width : Nat
deriving DecidableEq, Repr

def EncodeFault.message (fault : EncodeFault) : Text :=
  if fault.width ≤ 1 then
    "'utf-8' codec can't encode character '" ++ Text.escapeCode fault.first.code
      ++ "' in position " ++ Text.decimal fault.position ++ ": surrogates not allowed"
  else
    "'utf-8' codec can't encode characters in position " ++ Text.decimal fault.position ++ "-"
      ++ Text.decimal (fault.position + fault.width - 1) ++ ": surrogates not allowed"

def isHalf : CodePoint → Bool
  | .char _ => false
  | .half _ => true

/-- The byte that a half stands for in a name, if it stands for one. -/
def nameByte? (point : CodePoint) : Option UInt8 :=
  match point with
  | .char _ => none
  | .half _ =>
    if 0xDC80 ≤ point.code && point.code ≤ 0xDCFF then some (point.code - 0xDC00).toUInt8 else none

/-- Encodes a text, with what the given function says about halves. -/
def encodeWith (ofHalf : CodePoint → Option UInt8) (position : Nat) :
    Text → Except EncodeFault (List UInt8)
  | [] => .ok []
  | .char character :: rest =>
    match encodeWith ofHalf (position + 1) rest with
    | .error fault => .error fault
    | .ok bytes => .ok (encodeCode character.toNat ++ bytes)
  | .half index :: rest =>
    match ofHalf (.half index) with
    | none => .error ⟨position, .half index, (rest.takeWhile isHalf).length + 1⟩
    | some byte =>
      match encodeWith ofHalf (position + 1) rest with
      | .error fault => .error fault
      | .ok bytes => .ok (byte :: bytes)

/-- The UTF-8 bytes of a text, or the first run of halves. -/
def encode (text : Text) : Except EncodeFault (List UInt8) := encodeWith (fun _ => none) 0 text

/-- The bytes of a name, or the first half that stands for no byte. -/
def encodeName (name : Text) : Except EncodeFault (List UInt8) := encodeWith nameByte? 0 name

/-- The first code point of the bytes of a name, and the bytes behind it. A byte that is no part of
a character becomes the half that stands for it. -/
def namePoint (byte : UInt8) (rest : List UInt8) : CodePoint × List UInt8 :=
  let single := CodePoint.ofCode (0xDC00 + byte.toNat)
  match lead? byte.toNat with
  | none => (single, rest)
  | some lead =>
    match tail lead.low lead.high lead.continuation lead.payload 0 rest with
    | .broken _ _ => (single, rest)
    | .complete code after => (.char (Char.ofNat code), after)

/-- Reads the bytes of a name with an explicit step bound. -/
def decodeNameFrom : Nat → List UInt8 → Text
  | 0, _ => []
  | _ + 1, [] => []
  | bound + 1, byte :: rest =>
    let (point, after) := namePoint byte rest
    point :: decodeNameFrom bound after

def decodeName (bytes : List UInt8) : Text := decodeNameFrom (bytes.length + 1) bytes

end LogicSignature.Utf8
