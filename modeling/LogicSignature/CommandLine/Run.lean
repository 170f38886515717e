import LogicSignature.Catalog
import LogicSignature.CommandLine.Reading
import LogicSignature.Session.Checking

/-
Running a command line within a session: settings are loaded, logging is set up, the command is
done, and its result is written in the chosen format. Accepted programs end with code 0, rejected
ones with 2, and everything else that fails with 1.
-/

namespace LogicSignature.CommandLine

open Session (Action ask)

/-- The exit code and the output of a run. -/
structure Outcome where
  code : Nat
  output : Text
deriving DecidableEq, Repr

def acceptedCode : Nat := 0

def failedCode : Nat := 1

def rejectedCode : Nat := 2

def usageCode : Nat := 2

/-- The path that an option names: none when its value is blank or empty. -/
def Argument.path? : Argument → Option Storage.Path
  | .text content => if content.isEmpty then none else some (Storage.Path.ofText content)
  | .blank => none

/-- Loads settings and sets up logging: only errors are logged when quiet. -/
def prepare (given : Given) : Action Unit := do
  match given.config.bind Argument.path? with
  | some path => Session.loadSettings path
  | none => Session.loadDefaultSettings
  Session.configureLogging (if given.quiet then some .error else none) none

def argumentBytes : Argument → Except Fault (List UInt8)
  | .text content => Session.readHex content "argument"
  | .blank => .error .blankArgument

def readArgumentBytes : List Argument → Except Fault (List (List UInt8))
  | [] => .ok []
  | argument :: rest =>
    match argumentBytes argument with
    | .error fault => .error fault
    | .ok bytes =>
      match readArgumentBytes rest with
      | .error fault => .error fault
      | .ok others => .ok (bytes :: others)

def givenTable (given : Given) : Action (Option Opcode.Table) :=
  match given.langSpec.bind Argument.path? with
  | none => return none
  | some path => do
    let spec ← Session.loadLangSpec (some path)
    let table ← Session.tableOf spec
    return some table

/-- Checks a program. -/
def runCheck (given : Given) : Action Value := do
  let program ← Session.loadProgram given.text
  let arguments ← ask (fun _ => readArgumentBytes given.arguments)
  let table ← givenTable given
  let report ← Session.validate table {} program arguments
  return .record (("valid", .boolean true) :: Session.reportFields report)

def descriptorRow (descriptor : Opcode.Descriptor) : Value :=
  let size : Value :=
    match descriptor.block with
    | some kind => .text (kind.name ++ " block")
    | none => .ofQuantity descriptor.size
  .record
    [("opcode", .text ("0x" ++ Text.hex 2 descriptor.opcode.toNat)),
      ("name", .text descriptor.name), ("cost", .ofQuantity descriptor.cost), ("size", size)]

/-- The path of the specification to show. Here an empty value names a path too, and a blank one
names none. -/
def shownPath (given : Given) : Except Fault (Option Storage.Path) :=
  match given.langSpec with
  | none => .ok none
  | some (.text content) => .ok (some (Storage.Path.ofText content))
  | some .blank => .error (.pathKind "list")

def runLangSpecShow (given : Given) : Action Value := do
  let path ← ask (fun _ => shownPath given)
  let spec ← Session.loadLangSpec path
  let table ← Session.tableOf spec
  return .record
    [("source", .text spec.source), ("eval_max_version", .ofQuantity table.evalMaxVersion),
      ("logic_sig_version", .ofQuantity table.logicSigVersion),
      ("ops", .list (table.toList.map descriptorRow))]

def runVarintDecode (given : Given) : Except Fault Value := do
  let bytes ← Session.readHex given.text "data"
  match given.offset with
  | none => throw .blankOffset
  | some offset =>
    match Varint.decodeAt bytes offset with
    | .error fault => throw (.varint fault)
    | .ok outcome =>
      return .record
        [("value", .integer outcome.number), ("length", .integer outcome.length),
          ("status", .text outcome.status)]

def runVarintEncode (given : Given) : Except Fault Value :=
  match Varint.encode given.number with
  | .error fault => .error (.varint fault)
  | .ok bytes =>
    .ok (.record
      [("value", .integer given.number), ("hex", .text (Hex.encode bytes)),
        ("length", .integer bytes.length)])

/-- Checks the settings. -/
def runConfigValidate : Action Value := do
  let complaints ← Session.settingsComplaints
  if complaints.isEmpty then return .record [("valid", .boolean true)]
  else throw (.complaints complaints)

/-- Does what is asked for. -/
def perform (request : Request) : Action Content :=
  match request.command with
  | .root => throw (.unknownCommand "")
  | .check => return .value (← runCheck request.given)
  | .langSpec => throw (.unknownCommand "langspec")
  | .langSpecShow => return .value (← runLangSpecShow request.given)
  | .varint => throw (.unknownCommand "varint")
  | .varintDecode => return .value (← ask (fun _ => runVarintDecode request.given))
  | .varintEncode => return .value (← ask (fun _ => runVarintEncode request.given))
  | .config => throw (.unknownCommand "config")
  | .configGet => do
    let content ← Session.contentAt request.given.text
    return .record [(request.given.text, content)]
  | .configShow => Session.settingsContent
  | .configValidate => return .value (← runConfigValidate)

def renderResult (format : Output.Format) (content : Content) : Except Fault Text :=
  match Output.render format content with
  | .ok text => .ok (text ++ "\n")
  | .error fault => .error (.output fault)

/-- Prepares, does what is asked for, and gives the text of the result. -/
def respond (format : Output.Format) (request : Request) : Action Text := do
  prepare request.given
  let content ← perform request
  ask (fun _ => renderResult format content)

def rejectionResult (rejection : Program.Rejection) : Content :=
  .value (.record
    [("valid", .boolean false), ("error", .text rejection.code),
      ("message", .text rejection.message)])

/-- Runs a request. A rejection is a result; any other fault is reported unless quiet. -/
def runRequest (format : Output.Format) (request : Request) (session : Session) :
    Outcome × Session :=
  match Session.perform (respond format request) session with
  | (.ok text, after) => (⟨acceptedCode, text⟩, after)
  | (.error (.program (.rejected rejection)), after) =>
    match renderResult format (rejectionResult rejection) with
    | .ok text => (⟨rejectedCode, text⟩, after)
    | .error _ => (⟨failedCode, []⟩, after)
  | (.error fault, after) =>
    if request.given.quiet then (⟨failedCode, []⟩, after)
    else (⟨failedCode, []⟩, after.say ["Error: " ++ fault.message ++ "\n"])

/-- The end of a run whose command line names no command to run. -/
def runHalt (halt : Halt) (session : Session) : Outcome × Session :=
  let grammar := halt.command.grammar
  match halt.stop with
  | .help => (⟨acceptedCode, grammar.help⟩, session)
  | .version => (⟨acceptedCode, "lsigcheck " ++ Catalog.version ++ "\n"⟩, session)
  | .complaint complaint =>
    (⟨usageCode, []⟩,
      session.say [grammar.usage, grammar.name ++ ": error: " ++ complaint.message ++ "\n"])

/-- Runs a command line. It fails only when the format is left blank. -/
def run (arguments : List Text) : Action Outcome :=
  ExceptT.mk fun session =>
    match readLine arguments with
    | .error halt =>
      let (outcome, after) := runHalt halt session
      (.ok outcome, after)
    | .ok request =>
      match request.given.format with
      | none => (.error (.unknownWord "[]" "OutputFormat"), session)
      | some format =>
        let (outcome, after) := runRequest format request session
        (.ok outcome, after)

end LogicSignature.CommandLine
