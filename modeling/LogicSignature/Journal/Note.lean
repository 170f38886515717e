import LogicSignature.Journal.Event

/-
Notes from named values. Four names have a meaning of their own, the others form the context; names
that are taken already clash.
-/

namespace LogicSignature.Journal

/-- A named value whose name is taken by the call itself. -/
inductive Clash where
  | argument (call parameter : Text)
  | keyword (parameter : Text)
deriving DecidableEq, Repr

def Clash.message : Clash → Text
  | .argument call parameter =>
    "LsigLogger." ++ call ++ "() got multiple values for argument '" ++ parameter ++ "'"
  | .keyword parameter =>
    "lsigcheck.observability.LsigLogger._log() got multiple values for keyword argument '"
      ++ parameter ++ "'"

def firstTaken (taken : List Text) (values : List (Text × Value)) : Option Text :=
  (values.map Prod.fst).find? taken.contains

/-- Fails if one of the taken names is among the values. -/
def refuse (taken : List Text) (values : List (Text × Value)) (clash : Text → Clash) :
    Except Clash Unit :=
  match firstTaken taken values with
  | some name => .error (clash name)
  | none => .ok ()

/-- The names with a meaning of their own. -/
def Note.ownNames : List Text := ["operation", "error_code", "duration_ms", "exc_info"]

def Note.ofValues (message : Text) (values : List (Text × Value)) : Note :=
  let value (name : Text) (otherwise : Value) : Value := (values.lookup name).getD otherwise
  { message
    operation := value "operation" (.text "")
    errorCode := value "error_code" (.text "")
    duration := value "duration_ms" .null
    withException := (value "exc_info" .null).isPresent
    context := values.filter (fun entry => !Note.ownNames.contains entry.1) }

def Note.ofMessage (call message : Text) (values : List (Text × Value)) :
    Except Clash Note := do
  refuse ["self", "message"] values (.argument call)
  refuse ["level"] values (.argument "_log")
  return Note.ofValues message values

/-- The note about the end of an operation. -/
def Note.ofOperation (name : Text) (duration : Value) (succeeded : Bool) : Note :=
  { message := "Operation " ++ name ++ " " ++ (if succeeded then "completed" else "failed")
    operation := .text name
    duration }

/-- The note about the end of an operation, with named values. -/
def Note.ofOperationWith (name : Text) (duration : Value) (succeeded : Bool)
    (values : List (Text × Value)) : Except Clash Note := do
  refuse ["self", "name", "duration_ms", "success"] values (.argument "operation")
  refuse ["operation"] values .keyword
  refuse ["level", "message"] values (.argument "_log")
  let said := Note.ofValues "" values
  return { Note.ofOperation name duration succeeded with
    errorCode := said.errorCode
    withException := said.withException
    context := said.context }

/-- How serious the end of an operation is. -/
def operationSeverity (succeeded : Bool) : Severity := if succeeded then .debug else .warning

/-- What a component is asked to say: a message, or how an operation ended; each with named
values. -/
inductive Saying where
  | message (severity : Severity) (text : Text) (values : List (Text × Value))
  | operation (name : Text) (duration : Value) (succeeded : Bool) (values : List (Text × Value))

def Saying.severity : Saying → Severity
  | .message severity _ _ => severity
  | .operation _ _ succeeded _ => operationSeverity succeeded

def Saying.note : Saying → Except Clash Note
  | .message severity text values => Note.ofMessage severity.name text values
  | .operation name duration succeeded values =>
    Note.ofOperationWith name duration succeeded values

end LogicSignature.Journal
