import LogicSignature.Number.Binary64
import LogicSignature.Text.Utf8

/-
Text from a byte stream. A reader asks for characters in portions, and the bytes are decoded in
pieces, as they are needed. So a fault is met only when its portion is asked for, and its position
counts from the start of its piece.
-/

namespace LogicSignature.Stream

/-- The number of characters that a reader asks for at a time. -/
def portion : Nat := 4096

/-- The least size of a piece, in bytes. -/
def leastPiece : Nat := 8192

/-- The whole portions of a text in front of a place. The first two are asked for together, so that
one alone is none. -/
def portionsBefore (place : Nat) (text : List Char) : List Char :=
  let portions := place / portion
  if portions ≤ 1 then [] else text.take (portions * portion)

/-- The characters with plain line ends. A carriage return at the end waits for what follows it. -/
def settled (characters : List Char) : List Char :=
  Utf8.normaliseLines
    (if characters.getLast? == some '\r' then characters.dropLast else characters)

/-- The size of the next piece: as many bytes as the characters that the portion still lacks should
take, when a piece of `read` bytes gave `gained` characters and there are `count` in all. -/
def nextPiece (read gained count : Nat) : Nat :=
  let lacking := portion - count % portion
  let expected := (Binary64.ofQuotient false read gained).mul (Binary64.ofInt lacking)
  if gained == 0 then leastPiece else max leastPiece (expected.floor?.getD 0).toNat

/-- Whether bytes are the beginning of an encoded half of a surrogate pair. -/
def startsHalf : List UInt8 → Bool
  | [first, second] => first == 0xED && 0xA0 ≤ second.toNat && second.toNat ≤ 0xBF
  | _ => false

/-- The characters of a piece, and the bytes at its end that are carried over: those of a character
that may be completed by the next piece. The beginning of an encoded half is carried over as well.
-/
def decodePiece (piece : List UInt8) : Except Utf8.Fault (List Char × List UInt8) :=
  match Utf8.decode piece with
  | .ok characters => .ok (characters, [])
  | .error fault =>
    let carried := piece.drop fault.position
    if fault.reason == .unexpectedEnd || startsHalf carried then
      match Utf8.decode (piece.take fault.position) with
      | .ok characters => .ok (characters, carried)
      | .error inner => .error inner
    else .error fault

/-- Decodes a stream piece by piece: the characters of the good pieces, and the fault that stops it.
Positions count from the first byte carried over. -/
def decodePieces : Nat → Nat → List UInt8 → List UInt8 → List Char → List Char × Option Utf8.Fault
  | 0, _, _, _, done => (done, none)
  | bound + 1, size, carried, bytes, done =>
    if bytes.isEmpty then
      match Utf8.decode carried with
      | .error fault => (done, some fault)
      | .ok characters => (done ++ characters, none)
    else
      let read := bytes.take size
      match decodePiece (carried ++ read) with
      | .error fault => (done, some fault)
      | .ok (characters, rest) =>
        let all := done ++ characters
        let count := (settled all).length
        decodePieces bound (nextPiece read.length (count - (settled done).length) count) rest
          (bytes.drop size) all

/-- What a reader gets of a byte stream: the characters that it has asked for before it meets the
fault, and the fault. -/
def decode (bytes : List UInt8) : List Char × Option Utf8.Fault :=
  match decodePieces (bytes.length + 2) leastPiece [] bytes [] with
  | (characters, none) => (Utf8.normaliseLines characters, none)
  | (characters, some fault) =>
    let text := settled characters
    (portionsBefore text.length text, some fault)

end LogicSignature.Stream
