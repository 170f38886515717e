import LogicSignature.Session.State

/-
Logging within a session: components get their level and line format from the caller, else from the
settings, and their notes end up among the diagnostics.
-/

namespace LogicSignature.Session

open Journal (Severity Layer LineFormat Sink Component Note Saying)

/-- The level that the settings ask for; what is no level counts as a warning. -/
def configuredLevel (session : Session) : Severity :=
  match session.settings.get session.environment .logLevel with
  | .ok (.value (.text word)) => (Severity.ofName? word).getD .warning
  | _ => .warning

/-- The line format that the settings ask for. -/
def configuredFormat (session : Session) : Except Fault LineFormat :=
  match session.settings.get session.environment .logFormat with
  | .ok (.value (.text word)) => .ok (LineFormat.ofWord word)
  | .ok _ => .ok .json
  | .error fault => .error (.ofReading fault)

/-- The line format of a component made with a level and a format. When the settings are asked for
the level, an empty word leaves the format to them too. -/
def formatFor (session : Session) (level : Option Severity) (format : Option Text) :
    Except Fault LineFormat :=
  match format with
  | some word =>
    if word.isEmpty && level.isNone then session.configuredFormat else .ok (LineFormat.ofWord word)
  | none => session.configuredFormat

/-- The sink of a component made with a level and a format. -/
def sinkFor (session : Session) (level : Option Severity) (format : Option Text) :
    Except Fault Sink := do
  let lineFormat ← session.formatFor level format
  return ⟨level.getD session.configuredLevel, [lineFormat]⟩

/-- Makes a component that is not kept. -/
def newComponent (layer : Layer) (name : Text) (level : Option Severity)
    (format : Option Text) : Action Component := do
  let sink ← ask (fun session => session.sinkFor level format)
  let session ← get
  let (component, journal) := session.journal.construct layer name sink
  set { session with journal }
  return component

/-- The kept component of a name; it is made when it is first asked for. -/
def component (layer : Layer) (name : Text) : Action Component := do
  let session ← get
  match session.journal.components.lookup (Journal.componentKey layer name) with
  | some found => return found
  | none =>
    let made ← newComponent layer name session.journal.level session.journal.format
    change (fun current =>
      { current with journal := current.journal.keep (Journal.componentKey layer name) made })
    return made

/-- Makes the given components anew, one after the other. -/
def rebuild (level : Option Severity) (format : Option Text) :
    List (Text × Component) → Action Unit
  | [] => return ()
  | (key, old) :: rest => do
    let made ← newComponent old.layer old.name level format
    change (fun current => { current with journal := current.journal.keep key made })
    rebuild level format rest

/-- Makes all kept components anew, with a level and a format that also hold for later ones. -/
def configureLogging (level : Option Severity) (format : Option Text) : Action Unit := do
  change (fun session => { session with journal := { session.journal with level, format } })
  let session ← get
  rebuild level format session.journal.components

/-- The record of a note at the present moment. -/
def record (session : Session) (layer : Layer) (name : Text) (severity : Severity)
    (note : Note) : Journal.Record :=
  { moment := session.clock.moment
    severity
    logger := Journal.sinkName layer name
    layer := .text layer.name
    note }

/-- Writes a note of a component. -/
def note (layer : Layer) (name : Text) (severity : Severity) (note : Note) : Action Unit :=
  change (fun session =>
    session.say (session.journal.lines (session.record layer name severity note)))

/-- Writes what a component is asked to say, unless a name is taken. -/
def speak (component : Component) (saying : Saying) : Action Unit := do
  let written ← ask (fun _ => saying.note.mapError .clash)
  note component.layer component.name saying.severity written

/-- Does something, and writes a note about how it ended. -/
def timed {Result : Type} (layer : Layer) (name operation : Text) (action : Action Result) :
    Action Result :=
  ExceptT.mk (fun before =>
    let (result, after) := action.run before
    let succeeded :=
      match result with
      | .ok _ => true
      | .error _ => false
    let ending := Note.ofOperation operation (.real before.clock.operationTime) succeeded
    let severity := Journal.operationSeverity succeeded
    (result, after.say (after.journal.lines (after.record layer name severity ending))))

def startingComponents : List (Layer × Text) :=
  [(.langSpec, "loader"), (.opcodes, "table"), (.validator, "checker")]

/-- Fetches components, one after the other. -/
def fetchAll : List (Layer × Text) → Action Unit
  | [] => return ()
  | (layer, name) :: rest => do
    let _ ← component layer name
    fetchAll rest

/-- A session without components: settings untouched, nothing loaded, nothing written. -/
def blank (storage : Storage) (homeText : Text) (environment : Settings.Environment)
    (clock : Clock) : Session :=
  { settings := Settings.initial
    loadedFiles := []
    nextFile := 0
    environment
    storage
    homeText
    journal := Journal.empty
    held := none
    nextTable := 0
    clock
    diagnostics := [] }

/-- A session at its start: blank, but for the components that are fetched first of all. -/
def start (storage : Storage) (homeText : Text) (environment : Settings.Environment)
    (clock : Clock) : Session :=
  let session := blank storage homeText environment clock
  { session with journal := (perform (fetchAll startingComponents) session).2.journal }

def layerOf (value : Value) : Except Fault Layer :=
  match value with
  | .text word =>
    match Layer.ofName? word with
    | some layer => .ok layer
    | none => .error (.unknownWord value.inner "Layer")
  | _ => .error (.unknownWord value.inner "Layer")

def levelOf (value : Value) : Except Fault Severity :=
  match value with
  | .text word =>
    match Severity.ofName? word with
    | some severity => .ok severity
    | none => .error (.unknownWord value.inner "LogLevel")
  | _ => .error (.unknownWord value.inner "LogLevel")

end LogicSignature.Session
