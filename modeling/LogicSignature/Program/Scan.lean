import LogicSignature.Opcode.Table
import LogicSignature.Program.Rejection

/-
The scan of a program: instruction after instruction, adding up cost and count. Bytes inside an
instruction are skipped unseen. A last instruction of fixed size may reach beyond the end of the
program; a constant block may not.
-/

namespace LogicSignature.Program

/-- Why a scan or a check stops without an answer: a rejection, or a table whose numbers cannot be
worked with. A rejection that shows a number with too many digits cannot even be reported. -/
inductive Failure where
  | rejected (rejection : Rejection)
  | realPosition
  | costOverflow
  | unwritable
deriving DecidableEq, Repr

/-- The failure once its message is asked for. -/
def Failure.worded : Failure → Failure
  | .rejected rejection => if rejection.isWritable then .rejected rejection else .unwritable
  | other => other

/-- Cost and number of the instructions seen so far. -/
structure Tally where
  cost : Quantity
  instructions : Nat
deriving DecidableEq, Repr

def Tally.start : Tally := ⟨.integer 0, 0⟩

/-- What follows an instruction: the number of its bytes after the opcode, or nothing more when its
real size reaches the end. -/
inductive Advance where
  | skip (operands : Nat)
  | finish
deriving DecidableEq, Repr

/-- How far the scan goes on behind the opcode at a position, given the bytes after the opcode. -/
def advance (descriptor : Opcode.Descriptor) (position : Nat) (rest : List UInt8) :
    Except Failure Advance :=
  match descriptor.block with
  | some kind =>
    match ConstBlock.measure kind rest with
    | .ok size => .ok (.skip (size - 1))
    | .error fault => .error (.rejected (.undecodableBlock kind position fault))
  | none =>
    match descriptor.size with
    | .integer size => .ok (.skip (size.toNat - 1))
    | .real size =>
      if Quantity.less (.real size) (.integer (rest.length + 1)) then .error .realPosition
      else .ok .finish

/-- Scans from a position on. `operands` bytes belong to the instruction before. -/
def scan (table : Opcode.Table) (position operands : Nat) (tally : Tally) :
    List UInt8 → Except Failure Tally
  | [] => .ok tally
  | byte :: rest =>
    match operands with
    | left + 1 => scan table (position + 1) left tally rest
    | 0 =>
      match table.get? byte with
      | none => .error (.rejected (.invalidInstruction byte position))
      | some descriptor =>
        match Quantity.add? tally.cost descriptor.cost with
        | none => .error .costOverflow
        | some cost =>
          let next : Tally := ⟨cost, tally.instructions + 1⟩
          match advance descriptor position rest with
          | .error failure => .error failure
          | .ok .finish => .ok next
          | .ok (.skip count) => scan table (position + 1) count next rest

end LogicSignature.Program
