import LogicSignature.Opcode.Descriptor

/-
The opcode table: one slot for each byte, empty or with a descriptor. A later descriptor for an
opcode replaces an earlier one.
-/

namespace LogicSignature.Opcode

/-- The opcode table and the program versions it belongs to. -/
structure Table where
  slots : Vector (Option Descriptor) 256
  evalMaxVersion : Quantity
  logicSigVersion : Quantity

namespace Table

def emptySlots : Vector (Option Descriptor) 256 := Vector.replicate 256 none

/-- Puts a descriptor into its slot. -/
def place (slots : Vector (Option Descriptor) 256) (descriptor : Descriptor) :
    Vector (Option Descriptor) 256 :=
  slots.set descriptor.opcode.toNat (some descriptor) descriptor.opcode.toNat_lt

/-- The table of a list of descriptors. -/
def ofDescriptors (descriptors : List Descriptor) (evalMaxVersion logicSigVersion : Quantity) :
    Table :=
  { slots := descriptors.foldl place emptySlots
    evalMaxVersion
    logicSigVersion }

def get? (table : Table) (opcode : UInt8) : Option Descriptor :=
  table.slots.get ⟨opcode.toNat, opcode.toNat_lt⟩

/-- The descriptors in the order of their opcodes. -/
def toList (table : Table) : List Descriptor := table.slots.toList.filterMap id

/-- The number of opcodes that have a descriptor. -/
def size (table : Table) : Nat := table.toList.length

/-- The slot with an index; negative indices count from the end. Outer `none` means that there is no
such slot. -/
def slot? (table : Table) (index : Int) : Option (Option Descriptor) :=
  if 0 ≤ index then table.slots[index.toNat]?
  else if -256 ≤ index then table.slots[(index + 256).toNat]?
  else none

end Table

end LogicSignature.Opcode
