import LogicSignature.Calendar
import LogicSignature.Json.Writer
import LogicSignature.Value.Display

/-
Log events and their two line formats: a JSON object with the fields that are not empty, and plain
text with the error code and the context behind the message. An event that holds an integer with too
many digits has no line; what is written instead is a report of the failure. The report here leaves
out the places in the program that it lists besides.
-/

namespace LogicSignature.Journal

/-- How serious an event is. -/
inductive Severity where
  | debug
  | info
  | warning
  | error
  | critical
deriving DecidableEq, Repr

namespace Severity

def all : List Severity := [.debug, .info, .warning, .error, .critical]

def name : Severity → Text
  | .debug => "debug"
  | .info => "info"
  | .warning => "warning"
  | .error => "error"
  | .critical => "critical"

/-- The name in capitals, as plain text shows it. -/
def label : Severity → Text
  | .debug => "DEBUG"
  | .info => "INFO"
  | .warning => "WARNING"
  | .error => "ERROR"
  | .critical => "CRITICAL"

/-- The place in the order of severities. -/
def rank : Severity → Nat
  | .debug => 10
  | .info => 20
  | .warning => 30
  | .error => 40
  | .critical => 50

def ofName? (name : Text) : Option Severity := all.find? (fun severity => severity.name == name)

end Severity

/-- The components that write events. -/
inductive Layer where
  | varint
  | langSpec
  | opcodes
  | validator
  | config
  | cli
deriving DecidableEq, Repr

namespace Layer

def all : List Layer := [.varint, .langSpec, .opcodes, .validator, .config, .cli]

def name : Layer → Text
  | .varint => "varint"
  | .langSpec => "langspec"
  | .opcodes => "opcodes"
  | .validator => "validator"
  | .config => "config"
  | .cli => "cli"

def ofName? (name : Text) : Option Layer := all.find? (fun layer => layer.name == name)

end Layer

/-- A log event, with one value for each field. -/
structure Event where
  timestamp : Value
  level : Value
  logger : Value
  message : Value
  layer : Value := .text ""
  operation : Value := .text ""
  duration : Value := .null
  errorCode : Value := .text ""
  context : Value := .record []
  exception : Value := .null

/-- Whether a field has nothing to show: null, the empty text, or the empty record. -/
def isEmptyField : Value → Bool
  | .null => true
  | .text content => content.isEmpty
  | .record fields => fields.isEmpty
  | _ => false

namespace Event

/-- All fields in order. -/
def allFields (event : Event) : List (Text × Value) :=
  [("timestamp", event.timestamp), ("level", event.level), ("logger", event.logger),
    ("message", event.message), ("layer", event.layer), ("operation", event.operation),
    ("duration_ms", event.duration), ("error_code", event.errorCode),
    ("context", event.context), ("exception", event.exception)]

/-- The fields that are not empty, in order. -/
def fields (event : Event) : List (Text × Value) :=
  event.allFields.filter (fun entry => !isEmptyField entry.2)

/-- The event as a JSON object on one line, unless one of its integers has too many digits. -/
def json (event : Event) : Except Numeral.Fault Text :=
  let shown : Value := .record event.fields
  if (Data.ofValue shown).isShowable then .ok (Json.compact shown) else .error .tooLong

/-- The names of the fields that an event must have. -/
def requiredNames : List Text := ["timestamp", "level", "logger", "message"]

def optionalNames : List Text :=
  ["layer", "operation", "duration_ms", "error_code", "context", "exception"]

/-- Why named values make no event. -/
inductive Fault where
  | taken
  | unexpected (name : Text)
  | missing (names : List Text)
deriving DecidableEq, Repr

/-- Names in quotes, as a list in a sentence. -/
def nameList : List Text → Text
  | [] => ""
  | [name] => "'" ++ name ++ "'"
  | [first, second] => "'" ++ first ++ "' and '" ++ second ++ "'"
  | names =>
    names.dropLast.flatMap (fun name => ("'" ++ name ++ "', " : Text)) ++ "and '"
      ++ names.getLastD [] ++ "'"

def Fault.message : Fault → Text
  | .taken => "LogEvent.__init__() got multiple values for argument 'self'"
  | .unexpected name => "LogEvent.__init__() got an unexpected keyword argument '" ++ name ++ "'"
  | .missing names =>
    "LogEvent.__init__() missing " ++ Text.decimal names.length ++ " required positional argument"
      ++ (if names.length == 1 then "" else "s") ++ ": " ++ nameList names

def ofFields (values : List (Text × Value)) : Except Fault Event :=
  let names := values.map Prod.fst
  let known := requiredNames ++ optionalNames
  match names.find? (fun name => !known.contains name) with
  | some name => .error (if name == "self" then .taken else .unexpected name)
  | none =>
    match requiredNames.filter (fun name => !names.contains name) with
    | [] =>
      let value (name : Text) (otherwise : Value) : Value := (values.lookup name).getD otherwise
      .ok
        { timestamp := value "timestamp" .null
          level := value "level" .null
          logger := value "logger" .null
          message := value "message" .null
          layer := value "layer" (.text "")
          operation := value "operation" (.text "")
          duration := value "duration_ms" .null
          errorCode := value "error_code" (.text "")
          context := value "context" (.record [])
          exception := value "exception" .null }
    | missing => .error (.missing missing)

end Event

/-- What a component says: a message, and what belongs to it. -/
structure Note where
  message : Text
  operation : Value := .text ""
  errorCode : Value := .text ""
  duration : Value := .null
  withException : Bool := false
  context : List (Text × Value) := []

/-- A note about to be written: who says it, how serious it is, and when. -/
structure Record where
  moment : Int
  severity : Severity
  logger : Text
  layer : Value
  note : Note

inductive LineFormat where
  | json
  | text
deriving DecidableEq, Repr

/-- The format that a word asks for: text for `text`, else JSON. -/
def LineFormat.ofWord (word : Text) : LineFormat := if word == "text" then .text else .json

namespace Record

def noException : Text := "NoneType: None\n"

def event (record : Record) : Event :=
  { timestamp := .text (Calendar.timestamp record.moment)
    level := .text record.severity.name
    logger := .text record.logger
    message := .text record.note.message
    layer := record.layer
    operation := record.note.operation
    duration := record.note.duration
    errorCode := record.note.errorCode
    context := .record record.note.context
    exception := if record.note.withException then .text noException else .null }

/-- What stands behind the message in plain text: a name and the display of a value for each. -/
def remarks : List (Text × Value) → Except Numeral.Fault Text
  | [] => .ok []
  | (name, value) :: rest =>
    match (Data.ofValue value).shown with
    | .error fault => .error fault
    | .ok shown =>
      match remarks rest with
      | .error fault => .error fault
      | .ok others => .ok (" " ++ name ++ "=" ++ shown ++ others)

/-- The record in plain text, unless an integer in it has too many digits. -/
def plain (record : Record) : Except Numeral.Fault Text :=
  let head := (Calendar.timeOf record.moment).clock ++ " " ++ record.severity.label ++ " "
    ++ record.logger ++ ": " ++ record.note.message
  let code : List (Text × Value) :=
    if record.note.errorCode.isPresent then [("error_code", record.note.errorCode)] else []
  match remarks (code ++ record.note.context) with
  | .error fault => .error fault
  | .ok behind => .ok (head ++ behind)

/-- The report that a record has no text. -/
def failureReport (record : Record) (fault : Numeral.Fault) : Text :=
  "--- Logging error ---\nTraceback (most recent call last):\nValueError: " ++ fault.message
    ++ "\nCall stack:\nMessage: " ++ record.note.message.quoted ++ "\nArguments: ()\n"

/-- What is written of a record in a format: its text with a line end, or the report that it has
none. -/
def line (record : Record) (format : LineFormat) : Text :=
  let written :=
    match format with
    | .json => record.event.json
    | .text => record.plain
  match written with
  | .ok text => text ++ "\n"
  | .error fault => record.failureReport fault

end Record

end LogicSignature.Journal
