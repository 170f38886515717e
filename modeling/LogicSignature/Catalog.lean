import LogicSignature.Opcode.Descriptor
import LogicSignature.Program.Validation
import LogicSignature.Value.Basic

/-
The catalogue of public names, in its order, with the values of those that are plain constants.
-/

namespace LogicSignature.Catalog

/-- The version of the checker. -/
def version : Text := "0.1.0"

/-- The name of the catalogue. -/
def title : Text := "lsigcheck"

/-- The public names. -/
def names : List Text :=
  ["__version__", "check_program", "ProgramValidator", "ValidationLimits", "ValidationReport",
    "MAX_COST", "MAX_LENGTH", "OpcodeTable", "OpcodeDescriptor", "ConstBlockKind",
    "default_opcode_table", "init_opcode_table", "reset_opcode_table", "INTCBLOCK_OPCODE",
    "BYTECBLOCK_OPCODE", "LangSpec", "OpSpec", "load_langspec", "parse_langspec", "VarintResult",
    "decode_uvarint", "encode_uvarint", "LogicError", "MalformedVersion", "UnsupportedVersion",
    "ProgramTooLong", "InvalidInstruction", "ConstBlockDecodeError", "ProgramTooCostly",
    "LangSpecError", "InvariantViolation"]

/-- The names of the parts of the checker. -/
def parts : List Text :=
  ["varint", "langspec", "opcodes", "constblock", "logic", "errors", "config", "observability",
    "cli"]

/-- Names that every catalogue has, and that stand for no plain data. -/
def reserved : List Text := ["__getattr__", "__spec__", "__loader__", "__builtins__"]

/-- The values of names that stand for plain data. -/
def constants : List (Text × Value) :=
  [("__version__", .text version), ("MAX_COST", .integer Program.defaultMaxCost),
    ("MAX_LENGTH", .integer Program.defaultMaxLength),
    ("INTCBLOCK_OPCODE", .integer integerBlockOpcode.toNat),
    ("BYTECBLOCK_OPCODE", .integer byteBlockOpcode.toNat),
    ("__all__", .list (names.map Value.text)), ("__name__", .text title),
    ("__package__", .text title)]

/-- What a name stands for. -/
inductive Meaning where
  | constant (value : Value)
  | present
  | unknown (message : Text)

/-- Looks a name up. -/
def find (name : Text) : Meaning :=
  match constants.lookup name with
  | some value => .constant value
  | none =>
    if names.contains name || parts.contains name || reserved.contains name then .present
    else .unknown ("module '" ++ title ++ "' has no attribute '" ++ name ++ "'")

end LogicSignature.Catalog
