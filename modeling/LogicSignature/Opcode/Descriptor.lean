import LogicSignature.ConstBlock
import LogicSignature.Number.Quantity

/-
Opcode descriptors: the static cost and size of one opcode. An instruction is of fixed size, at
least one byte, or a constant block whose size follows from its entries.
-/

namespace LogicSignature

def integerBlockOpcode : UInt8 := 0x20

def byteBlockOpcode : UInt8 := 0x26

/-- The constant block that an opcode number stands for. -/
def blockKind? (opcode : Quantity) : Option BlockKind :=
  if opcode.same (.integer 0x20) then some .integers
  else if opcode.same (.integer 0x26) then some .bytes
  else none

namespace Opcode

/-- Why a descriptor is refused. -/
inductive Violation where
  | outOfRange (opcode : Int)
  | negativeCost (opcode : Int)
  | sizeless (opcode : Int)
  | notBlock (opcode : Int)
deriving DecidableEq, Repr

def Violation.message : Violation → Text
  | .outOfRange opcode => "opcode out of range: " ++ Text.signedDecimal opcode
  | .negativeCost opcode => "negative cost for opcode 0x" ++ Text.signedHex2 opcode
  | .sizeless opcode =>
    "fixed-size opcode 0x" ++ Text.signedHex2 opcode ++ " must have size >= 1"
  | .notBlock opcode => "opcode 0x" ++ Text.signedHex2 opcode ++ " is not a constant block"

/-- The static description of an opcode. The cost is not negative, and an instruction that is no
constant block has at least one byte. -/
structure Descriptor where
  opcode : UInt8
  cost : Quantity
  size : Quantity
  name : Text
  block : Option BlockKind
  cost_nonneg : cost.less (.integer 0) = false
  size_pos : block = none → size.less (.integer 1) = false

/-- Builds a descriptor. The opcode is checked first, then the cost, then the size. -/
def Descriptor.make (opcode : Int) (cost size : Quantity) (name : Text)
    (block : Option BlockKind) : Except Violation Descriptor :=
  if opcode < 0 ∨ 255 < opcode then .error (.outOfRange opcode)
  else if hCost : cost.less (.integer 0) = true then .error (.negativeCost opcode)
  else if hSize : block = none ∧ size.less (.integer 1) = true then .error (.sizeless opcode)
  else
    .ok
      { opcode := UInt8.ofNat opcode.toNat
        cost
        size
        name
        block
        cost_nonneg := by simpa using hCost
        size_pos := by
          intro hBlock
          by_cases hLess : size.less (.integer 1) = true
          · exact absurd ⟨hBlock, hLess⟩ hSize
          · simpa using hLess }

/-- Builds the descriptor of a constant block. Whether the opcode stands for one is checked
first. -/
def Descriptor.constantBlock (opcode : Int) (cost : Quantity) (name : Text) :
    Except Violation Descriptor :=
  match blockKind? (.integer opcode) with
  | none => .error (.notBlock opcode)
  | some kind => Descriptor.make opcode cost (.integer 0) name (some kind)

end Opcode

end LogicSignature
