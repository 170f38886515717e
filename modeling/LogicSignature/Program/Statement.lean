import LogicSignature.Program.Rejection
import LogicSignature.Value.Display

/-
Rejections as statements: a topic and the values it is stated with, which may be any values. The
topic says how many values it takes; the message is worded from their displays.
-/

namespace LogicSignature.Program

/-- What a statement is about. -/
inductive Topic where
  | logic
  | malformedVersion
  | unsupportedVersion
  | tooLong
  | invalidInstruction
  | undecodableBlock
  | tooCostly
  | langSpec
  | invariant
deriving DecidableEq, Repr

namespace Topic

def name : Topic → Text
  | .logic => "LogicError"
  | .malformedVersion => "MalformedVersion"
  | .unsupportedVersion => "UnsupportedVersion"
  | .tooLong => "ProgramTooLong"
  | .invalidInstruction => "InvalidInstruction"
  | .undecodableBlock => "ConstBlockDecodeError"
  | .tooCostly => "ProgramTooCostly"
  | .langSpec => "LangSpecError"
  | .invariant => "InvariantViolation"

def all : List Topic :=
  [.logic, .malformedVersion, .unsupportedVersion, .tooLong, .invalidInstruction,
    .undecodableBlock, .tooCostly, .langSpec, .invariant]

def ofName? (name : Text) : Option Topic := all.find? (fun topic => topic.name == name)

/-- The stable name of the failed gate, for the topics that are one. -/
def code? : Topic → Option Text
  | .logic => some "logic_error"
  | .malformedVersion => some "malformed_version"
  | .unsupportedVersion => some "unsupported_version"
  | .tooLong => some "program_too_long"
  | .invalidInstruction => some "invalid_instruction"
  | .undecodableBlock => some "const_block_decode"
  | .tooCostly => some "program_too_costly"
  | .langSpec | .invariant => none

/-- The values that a topic must have, and those that it may have. -/
structure Signature where
  owner : Text
  required : List Text
  optional : List Text

/-- The signature of a topic; one topic takes any number of values. -/
def signature? : Topic → Option Signature
  | .logic | .malformedVersion => some ⟨"LogicError", [], ["message"]⟩
  | .unsupportedVersion => some ⟨"UnsupportedVersion", ["version", "max_version"], []⟩
  | .tooLong => some ⟨"ProgramTooLong", ["length", "max_length"], []⟩
  | .invalidInstruction => some ⟨"InvalidInstruction", ["opcode", "pc"], []⟩
  | .undecodableBlock => some ⟨"ConstBlockDecodeError", ["kind", "pc"], ["index", "reason"]⟩
  | .tooCostly => some ⟨"ProgramTooCostly", ["cost", "max_cost"], []⟩
  | .langSpec => some ⟨"LangSpecError", ["message"], ["errors"]⟩
  | .invariant => none

end Topic

/-- Why values make no statement. -/
inductive StatementFault where
  | missing (owner : Text) (names : List Text)
  | surplus (owner : Text) (least most given : Nat)
  | notHex (kind : Text)
  | noFormat (kind : Text)
deriving DecidableEq, Repr

/-- Names in quotes, with a word before the last one. -/
def nameList : List Text → Text
  | [] => ""
  | [name] => "'" ++ name ++ "'"
  | [first, second] => "'" ++ first ++ "' and '" ++ second ++ "'"
  | names =>
    Text.join ", " (names.dropLast.map fun name => "'" ++ name ++ "'") ++ ", and '"
      ++ names.getLastD "" ++ "'"

def StatementFault.message : StatementFault → Text
  | .missing owner names =>
    owner ++ ".__init__() missing " ++ Text.decimal names.length ++ " required positional "
      ++ (if names.length == 1 then "argument: " else "arguments: ") ++ nameList names
  | .surplus owner least most given =>
    owner ++ ".__init__() takes "
      ++ (if least == most then Text.decimal most
        else "from " ++ Text.decimal least ++ " to " ++ Text.decimal most)
      ++ " positional arguments but " ++ Text.decimal given ++ " were given"
  | .notHex kind => "Unknown format code 'x' for object of type '" ++ kind ++ "'"
  | .noFormat kind => "unsupported format string passed to " ++ kind ++ ".__format__"

/-- A statement: what it is about, its message, and the facts it reports. -/
structure Statement where
  topic : Topic
  message : Text
  fields : List (Text × Value)

/-- Checks the number of values. The owner of the values counts as one more. -/
def checkCount (signature : Topic.Signature) (count : Nat) : Except StatementFault Unit :=
  let least := signature.required.length
  let most := least + signature.optional.length
  if count < least then .error (.missing signature.owner (signature.required.drop count))
  else if most < count then .error (.surplus signature.owner (least + 1) (most + 1) (count + 1))
  else .ok ()

/-- The hexadecimal spelling of a value, which only an integer or a truth value has. -/
def hexOf : Value → Except StatementFault Text
  | .integer number => .ok (Text.signedHex2 number)
  | .boolean flag => .ok (Text.signedHex2 (if flag then 1 else 0))
  | .real _ => .error (.notHex "float")
  | .text _ => .error (.notHex "str")
  | other => .error (.noFormat other.kindName)

/-- A value at a place, or another one when there is none. -/
def valueOr (values : List Value) (index : Nat) (other : Value) : Value := values.getD index other

/-- The display of a value, or the code of the topic when the value is nothing. -/
def messageOr (topic : Topic) (value : Value) : Text :=
  if value.isPresent then value.display else topic.code?.getD ""

/-- The display of any number of values: nothing, the value, or the tuple of them. -/
def tupleText : List Value → Text
  | [] => ""
  | [value] => value.display
  | values => "(" ++ Text.join ", " (values.map Value.inner) ++ ")"

def Statement.make (topic : Topic) (values : List Value) : Except StatementFault Statement := do
  if let some signature := topic.signature? then checkCount signature values.length
  let nth (index : Nat) : Value := valueOr values index .null
  match topic with
  | .logic | .malformedVersion => return ⟨topic, messageOr topic (nth 0), []⟩
  | .unsupportedVersion =>
    return ⟨topic, Wording.unsupportedVersion (nth 0).display (nth 1).display,
      [("version", nth 0), ("max_version", nth 1)]⟩
  | .tooLong =>
    return ⟨topic, Wording.tooLong (nth 0).display (nth 1).display,
      [("length", nth 0), ("max_length", nth 1)]⟩
  | .invalidInstruction => do
    let opcode ← hexOf (nth 0)
    return ⟨topic, Wording.invalidInstruction opcode (nth 1).display,
      [("opcode", nth 0), ("pc", nth 1)]⟩
  | .undecodableBlock =>
    let reason := valueOr values 3 (.text "")
    let index : Option Text :=
      match nth 2 with
      | .null => none
      | other => some other.display
    let detail := if reason.isPresent then some reason.display else none
    return ⟨topic, Wording.undecodableBlock (nth 0).display (nth 1).display index detail,
      [("kind", nth 0), ("pc", nth 1), ("index", nth 2), ("reason", reason)]⟩
  | .tooCostly =>
    return ⟨topic, Wording.tooCostly (nth 0).display (nth 1).display,
      [("cost", nth 0), ("max_cost", nth 1)]⟩
  | .langSpec =>
    let errors := if (nth 1).isPresent then nth 1 else .list []
    return ⟨topic, (nth 0).display, [("errors", errors)]⟩
  | .invariant => return ⟨topic, tupleText values, []⟩

end LogicSignature.Program
