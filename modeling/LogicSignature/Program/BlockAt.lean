import LogicSignature.Fault

/-
The size of a constant block at any position of a program, also before its start or behind its end.
-/

namespace LogicSignature.Program

/-- The number of bytes of the constant block whose opcode stands at a position. -/
def blockSizeAt (kind : BlockKind) (program : List UInt8) (position : Int) : Except Fault Nat :=
  if position + 1 < 0 then .error (.varint .negativeOffset)
  else
    match ConstBlock.measure kind (program.drop (position + 1).toNat) with
    | .ok size => .ok size
    | .error fault =>
      .error (.program (Failure.worded (.rejected (.undecodableBlock kind position fault))))

end LogicSignature.Program
