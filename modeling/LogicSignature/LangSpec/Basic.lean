import LogicSignature.LangSpec.Violation
import LogicSignature.Opcode.Table

/-
Language specifications: the parts of a specification document that checking needs, and the opcode
table that they give. An operation of size zero is a constant block; where the opcode is none, the
operation is left out of the table, so that a program that uses it is rejected.
-/

namespace LogicSignature

structure Operation where
  opcode : Quantity
  name : Text
  cost : Quantity
  size : Quantity
deriving DecidableEq, Repr

structure LangSpec where
  evalMaxVersion : Quantity
  logicSigVersion : Quantity
  operations : List Operation
  source : Text
deriving DecidableEq, Repr

namespace LangSpec

/-- The source of a specification that was not loaded from a file. -/
def memorySource : Text := "<memory>"

def quantityField (name : Text) (value : Value) (otherwise : Quantity) : Quantity :=
  ((value.field? name).bind Value.quantity?).getD otherwise

def textField (name : Text) (value : Value) : Text :=
  match value.field? name with
  | some (.text content) => content
  | _ => ""

/-- The operation that a record without violations describes. -/
def operationOf (value : Value) : Operation :=
  { opcode := quantityField "Opcode" value (.integer 0)
    name := textField "Name" value
    cost := quantityField "Cost" value (.integer 0)
    size := quantityField "Size" value (.integer 0) }

/-- The operations of a document without violations. -/
def operationsOf (document : Value) : List Operation :=
  match document.field? "Ops" with
  | some (.list items) => items.map operationOf
  | _ => []

def ofDocument (document : Value) (source : Text) : Except (List Violation) LangSpec :=
  match violations document with
  | [] =>
    let evalMaxVersion := quantityField "EvalMaxVersion" document (.integer 0)
    .ok
      { evalMaxVersion
        logicSigVersion := quantityField "LogicSigVersion" document evalMaxVersion
        operations := operationsOf document
        source }
  | found => .error found

end LangSpec

/-- Whether the opcode table has room for an operation: it has a size, or is a constant block. -/
def Operation.isKept (operation : Operation) : Bool :=
  !operation.size.same (.integer 0) || (blockKind? operation.opcode).isSome

/-- The operations that the opcode table leaves out, in order. -/
def LangSpec.dropped (spec : LangSpec) : List Operation :=
  spec.operations.filter (fun operation => !operation.isKept)

namespace Opcode

/-- Why a specification gives no table: an opcode that is no integer cannot number a slot. -/
inductive TableFault where
  | realOpcode
  | refused (violation : Violation)
deriving DecidableEq, Repr

def Descriptor.ofOperation (operation : Operation) : Except TableFault Descriptor :=
  match operation.opcode with
  | .real _ => .error .realOpcode
  | .integer opcode =>
    let built :=
      if operation.size.same (.integer 0) then
        Descriptor.constantBlock opcode operation.cost operation.name
      else Descriptor.make opcode operation.cost operation.size operation.name none
    match built with
    | .ok descriptor => .ok descriptor
    | .error violation => .error (.refused violation)

def keptDescriptors : List Operation → Except TableFault (List Descriptor)
  | [] => .ok []
  | operation :: rest =>
    if operation.isKept then
      match Descriptor.ofOperation operation with
      | .error fault => .error fault
      | .ok descriptor =>
        match keptDescriptors rest with
        | .error fault => .error fault
        | .ok others => .ok (descriptor :: others)
    else keptDescriptors rest

def Table.ofSpec (spec : LangSpec) : Except TableFault Table :=
  match keptDescriptors spec.operations with
  | .error fault => .error fault
  | .ok descriptors => .ok (ofDescriptors descriptors spec.evalMaxVersion spec.logicSigVersion)

end Opcode

end LogicSignature
