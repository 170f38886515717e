import LogicSignature.Varint

/-
Constant blocks: instructions that carry their constants inline. After the opcode stands the number
of entries, then the entries. An integer entry is one variable-length integer; a byte entry is a
length followed by that many bytes. The size of such an instruction is known only after walking its
entries, and the walk never leaves the program.
-/

namespace LogicSignature

/-- The entry layout of a constant block. -/
inductive BlockKind where
  | integers
  | bytes
deriving DecidableEq, Repr

def BlockKind.name : BlockKind → Text
  | .integers => "int"
  | .bytes => "byte[]"

namespace ConstBlock

/-- Why a block cannot be walked. Offsets count from the opcode byte. -/
inductive Reason where
  | truncated (offset : Nat)
  | malformed (offset : Nat)
  | pastEnd
  | longConstant (length : Nat)
deriving DecidableEq, Repr

/-- The text of a reason for a block at a position of a program. -/
def Reason.text (position : Int) : Reason → Text
  | .truncated offset =>
    "truncated varint at offset " ++ Text.signedDecimal (position + (offset : Int))
  | .malformed offset =>
    "malformed varint at offset " ++ Text.signedDecimal (position + (offset : Int))
  | .pastEnd => "block exceeds program length"
  | .longConstant length => Text.decimal length ++ "-byte constant exceeds program length"

/-- A reason, with the index of the entry that shows it; no index when the entry count itself cannot
be read. -/
structure Fault where
  index : Option Nat
  reason : Reason
deriving DecidableEq, Repr

/-- The numbers that the text of a reason shows. -/
def Reason.numbers (position : Int) : Reason → List Int
  | .truncated offset | .malformed offset => [position + (offset : Int)]
  | .pastEnd => []
  | .longConstant length => [(length : Int)]

/-- The numbers that a report of a fault shows besides the position of the block. -/
def Fault.numbers (position : Int) (fault : Fault) : List Int :=
  fault.index.toList.map Int.ofNat ++ fault.reason.numbers position

/-- Walks entries. `size` is the number of bytes from the opcode to the next entry, and `rest` the
bytes from there on. -/
def entries (kind : BlockKind) : Nat → Nat → Nat → List UInt8 → Except Fault Nat
  | 0, _, size, _ => .ok size
  | count + 1, index, size, rest =>
    if rest.isEmpty then .error ⟨some index, .pastEnd⟩
    else
      match Varint.decode rest with
      | .exhausted => .error ⟨some index, .truncated size⟩
      | .malformed _ => .error ⟨some index, .malformed size⟩
      | .decoded number length =>
        match kind with
        | .integers => entries kind count (index + 1) (size + length) (rest.drop length)
        | .bytes =>
          if (rest.drop length).length < number then .error ⟨some index, .longConstant number⟩
          else
            entries kind count (index + 1) (size + length + number) (rest.drop (length + number))

/-- The size of a block, its opcode included, from the bytes after the opcode. -/
def measure (kind : BlockKind) (body : List UInt8) : Except Fault Nat :=
  match Varint.decode body with
  | .exhausted => .error ⟨none, .truncated 1⟩
  | .malformed _ => .error ⟨none, .malformed 1⟩
  | .decoded count length => entries kind count 0 (1 + length) (body.drop length)

end ConstBlock

end LogicSignature
