import LogicSignature.ConstBlock
import LogicSignature.Number.Numeral

/-
Rejections: the reasons for which a program is not acceptable. Each has a stable code and a message,
which can be written only if the numbers it shows are not too long.
-/

namespace LogicSignature.Program

/-! ### Wording

The sentences of the messages, with the texts of the facts they report. -/

namespace Wording

def unsupportedVersion (version maxVersion : Text) : Text :=
  "unsupported version " ++ version ++ " (max " ++ maxVersion ++ ")"

def tooLong (length maxLength : Text) : Text :=
  "program too long: " ++ length ++ " > " ++ maxLength ++ " bytes"

def invalidInstruction (opcode position : Text) : Text :=
  "invalid instruction 0x" ++ opcode ++ " at pc=" ++ position

/-- The entry and the reason are left out when there is none. -/
def undecodableBlock (kind position : Text) (index reason : Option Text) : Text :=
  let entry : Text :=
    match index with
    | none => ""
    | some index => "[" ++ index ++ "]"
  let detail : Text :=
    match reason with
    | none => ""
    | some reason => ": " ++ reason
  "could not decode " ++ kind ++ " const" ++ entry ++ " block at pc=" ++ position ++ detail

def tooCostly (cost maxCost : Text) : Text :=
  "program too costly to run: " ++ cost ++ " > " ++ maxCost

end Wording

inductive Rejection where
  | malformedVersion
  | unsupportedVersion (version : Nat) (maxVersion : Quantity)
  | tooLong (length : Nat) (maxLength : Int)
  | invalidInstruction (opcode : UInt8) (position : Nat)
  | undecodableBlock (kind : BlockKind) (position : Int) (fault : ConstBlock.Fault)
  | tooCostly (cost : Quantity) (maxCost : Int)
deriving DecidableEq, Repr

namespace Rejection

/-- The stable name of the failed gate. -/
def code : Rejection → Text
  | .malformedVersion => "malformed_version"
  | .unsupportedVersion _ _ => "unsupported_version"
  | .tooLong _ _ => "program_too_long"
  | .invalidInstruction _ _ => "invalid_instruction"
  | .undecodableBlock _ _ _ => "const_block_decode"
  | .tooCostly _ _ => "program_too_costly"

def message : Rejection → Text
  | .malformedVersion => "version parsing error"
  | .unsupportedVersion version maxVersion =>
    Wording.unsupportedVersion (Text.decimal version) maxVersion.text
  | .tooLong length maxLength =>
    Wording.tooLong (Text.decimal length) (Text.signedDecimal maxLength)
  | .invalidInstruction opcode position =>
    Wording.invalidInstruction (Text.hex 2 opcode.toNat) (Text.decimal position)
  | .undecodableBlock kind position fault =>
    Wording.undecodableBlock kind.name (Text.signedDecimal position)
      (fault.index.map Text.decimal) (some (fault.reason.text position))
  | .tooCostly cost maxCost => Wording.tooCostly cost.text (Text.signedDecimal maxCost)

/-- The numbers that the message of a rejection shows in decimal. -/
def numbers : Rejection → List Quantity
  | .malformedVersion => []
  | .unsupportedVersion version maxVersion => [.integer version, maxVersion]
  | .tooLong length maxLength => [.integer length, .integer maxLength]
  | .invalidInstruction _ position => [.integer position]
  | .undecodableBlock _ position fault =>
    .integer position :: (fault.numbers position).map Quantity.integer
  | .tooCostly cost maxCost => [cost, .integer maxCost]

def isWritable (rejection : Rejection) : Bool := rejection.numbers.all Numeral.isWritableQuantity

end Rejection

end LogicSignature.Program
