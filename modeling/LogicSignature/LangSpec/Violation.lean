import LogicSignature.Value.Display

/-
Violations of a language-specification document. The document is a record with the greatest program
version and a list of operations; an operation is a record with opcode, cost and size. Every place
is checked against every constraint on it, and the violations are listed in the order of their
paths.
-/

namespace LogicSignature.LangSpec

/-- One step from a value to a part of it. -/
inductive Step where
  | field (name : Text)
  | item (index : Nat)
deriving DecidableEq, Repr

def Step.text : Step → Text
  | .field name => "." ++ name
  | .item index => "[" ++ Text.decimal index ++ "]"

def pathText (path : List Step) : Text := "$" ++ (path.map Step.text).flatten

/-- The kinds of value that a place may ask for. -/
inductive Kind where
  | object
  | array
  | string
  | integer
deriving DecidableEq, Repr

def Kind.name : Kind → Text
  | .object => "object"
  | .array => "array"
  | .string => "string"
  | .integer => "integer"

/-- Whether a value is of a kind. A real without fraction is an integer; a truth value is not. -/
def Kind.admits : Kind → Value → Bool
  | .object, .record _ => true
  | .array, .list _ => true
  | .string, .text _ => true
  | .integer, value => (value.quantity?.map Quantity.isIntegral).getD false
  | _, _ => false

/-- A constraint on a place. -/
inductive Constraint where
  | kind (expected : Kind)
  | required (name : Text)
  | minimum (limit : Int)
  | maximum (limit : Int)
deriving DecidableEq, Repr

/-- Whether a value meets a constraint. A constraint on another kind of value does not apply. -/
def Constraint.holds : Constraint → Value → Bool
  | .kind expected, value => expected.admits value
  | .required name, .record fields => (fields.lookup name).isSome
  | .required _, _ => true
  | .minimum limit, value =>
    match value.quantity? with
    | some number => !number.less (.integer limit)
    | none => true
  | .maximum limit, value =>
    match value.quantity? with
    | some number => !Quantity.less (.integer limit) number
    | none => true

/-- A constraint that the value at a place does not meet. -/
structure Violation where
  path : List Step
  constraint : Constraint
  value : Value

def Violation.message (violation : Violation) : Text :=
  match violation.constraint with
  | .kind expected => violation.value.inner ++ " is not of type '" ++ expected.name ++ "'"
  | .required name => "'" ++ name ++ "' is a required property"
  | .minimum limit =>
    violation.value.inner ++ " is less than the minimum of " ++ Text.signedDecimal limit
  | .maximum limit =>
    violation.value.inner ++ " is greater than the maximum of " ++ Text.signedDecimal limit

/-- The line that reports a violation. -/
def Violation.text (violation : Violation) : Text :=
  pathText violation.path ++ ": " ++ violation.message

/-- The violations of constraints at one place, in the order of the constraints. -/
def atPlace (path : List Step) (constraints : List Constraint) (value : Value) :
    List Violation :=
  (constraints.filter (fun constraint => !constraint.holds value)).map
    (fun constraint => ⟨path, constraint, value⟩)

/-- The violations at a field, if the value is a record that has it. -/
def atField (path : List Step) (name : Text) (value : Value)
    (check : List Step → Value → List Violation) : List Violation :=
  match value.field? name with
  | some part => check (path ++ [.field name]) part
  | none => []

def nonNegativeInteger : List Constraint := [.kind .integer, .minimum 0]

def opcodeByte : List Constraint := [.kind .integer, .minimum 0, .maximum 255]

def operationViolations (path : List Step) (value : Value) : List Violation :=
  atPlace path [.kind .object, .required "Opcode", .required "Cost", .required "Size"] value
    ++ atField path "Opcode" value (atPlace · opcodeByte ·)
    ++ atField path "Name" value (atPlace · [.kind .string] ·)
    ++ atField path "Cost" value (atPlace · nonNegativeInteger ·)
    ++ atField path "Size" value (atPlace · nonNegativeInteger ·)

/-- The violations of the items of a list, from an index on. -/
def itemViolations (path : List Step) (check : List Step → Value → List Violation) :
    Nat → List Value → List Violation
  | _, [] => []
  | index, item :: rest =>
    check (path ++ [.item index]) item ++ itemViolations path check (index + 1) rest

def operationListViolations (path : List Step) (value : Value) : List Violation :=
  atPlace path [.kind .array] value
    ++ (match value with
      | .list items => itemViolations path operationViolations 0 items
      | _ => [])

/-- The violations of a document, place by place. -/
def unorderedViolations (document : Value) : List Violation :=
  atPlace [] [.kind .object, .required "EvalMaxVersion", .required "Ops"] document
    ++ atField [] "EvalMaxVersion" document (atPlace · nonNegativeInteger ·)
    ++ atField [] "LogicSigVersion" document (atPlace · nonNegativeInteger ·)
    ++ atField [] "Ops" document operationListViolations

/-- The violations of a document in the order of their path texts; at one place they keep the order
of the constraints. -/
def violations (document : Value) : List Violation :=
  (unorderedViolations document).mergeSort
    (fun left right => Text.order (pathText left.path) (pathText right.path) != .gt)

end LogicSignature.LangSpec
