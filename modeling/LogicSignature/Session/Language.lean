import LogicSignature.LangSpec.Bundled
import LogicSignature.Session.Configuring

/-
The language specification and the opcode table of a session. The table is built when it is first
needed and then kept, whatever happens to settings and files, until it is replaced or forgotten.
-/

namespace LogicSignature.Session

/-- The document in a file. -/
def langSpecDocument (storage : Storage) (path : Storage.Path) : Except Fault Value := do
  let bytes ←
    match storage.read path with
    | .ok bytes => pure bytes
    | .error fault =>
      match fault.obstacle with
      | .notFound => throw (.langSpec (.missing path.text))
      | .nullCharacter | .unencodable _ => throw (.storage fault)
      | _ => throw (.langSpec (.unreadable path.text fault))
  let characters ←
    match Utf8.decode bytes with
    | .ok characters => pure (Utf8.normaliseLines characters)
    | .error fault => throw (.langSpec (.undecodable path.text fault))
  match Json.parse (Text.ofChars characters) with
  | .ok document => return document
  | .error fault =>
    match fault with
    | .misplaced _ _ _ _ => throw (.langSpec (.malformed path.text fault))
    | .tooManyDigits _ => throw (.document fault)

def langSpecFile (storage : Storage) (path : Storage.Path) : Except Fault LangSpec := do
  let document ← langSpecDocument storage path
  match LangSpec.parse document path.text with
  | .ok spec => return spec
  | .error fault => throw (.langSpec fault)

/-- The file that the settings name, or none for the bundled specification. -/
def configuredSpecPath (session : Session) : Except Fault (Option Storage.Path) :=
  match session.settings.get session.environment .langSpecPath with
  | .error fault => .error (.ofReading fault)
  | .ok content =>
    if content.isPresent then
      match content with
      | .value (.text path) => .ok (some (Storage.Path.ofText path))
      | other => .error (.pathKind other.shortKindName)
    else .ok none

/-- The specification of a path, of the settings when there is no path. -/
def findLangSpec (session : Session) (path : Option Storage.Path) : Except Fault LangSpec := do
  let chosen ←
    match path with
    | some given => pure (some given)
    | none => session.configuredSpecPath
  match chosen with
  | some file => langSpecFile session.storage file
  | none => return LangSpec.bundled

def loadLangSpec (path : Option Storage.Path) : Action LangSpec := do
  let spec ← ask (fun session => session.findLangSpec path)
  note .langSpec "loader" .info
    { message := "Loaded langspec"
      operation := .text "load_langspec"
      context :=
        [("source", .text spec.source), ("eval_max_version", .ofQuantity spec.evalMaxVersion),
          ("ops", .integer spec.operations.length)] }
  return spec

/-- The note about an operation that the table has no room for. -/
def droppedNote (source : Text) (operation : Operation) : Journal.Note :=
  { message := "Dropping variable-size op with no known layout"
    context :=
      [("opcode", .ofQuantity operation.opcode), ("name", .text operation.name),
        ("source", .text source)] }

def noteDropped (source : Text) : List Operation → Action Unit
  | [] => return ()
  | operation :: rest => do
    note .opcodes "table" .warning (droppedNote source operation)
    noteDropped source rest

/-- The table of a specification, with a warning for each operation left out. -/
def tableOf (spec : LangSpec) : Action Opcode.Table := do
  noteDropped spec.source spec.dropped
  ask (fun _ =>
    match Opcode.Table.ofSpec spec with
    | .ok table => .ok table
    | .error fault => .error (.table fault))

def buildTable (path : Option Storage.Path) : Action Opcode.Table :=
  timed .opcodes "table" "build_opcode_table" do
    let spec ← loadLangSpec path
    tableOf spec

/-- Keeps a table for later. -/
def hold (table : Opcode.Table) : Action HeldTable := do
  let session ← get
  let held : HeldTable := ⟨session.nextTable, table⟩
  set { session with held := some held, nextTable := session.nextTable + 1 }
  return held

/-- Builds a table and keeps it, in the stead of the one kept before. -/
def initTable (path : Option Storage.Path) : Action HeldTable := do
  let table ← buildTable path
  hold table

/-- The kept table; when there is none, it is built and kept. -/
def defaultTable : Action HeldTable := do
  let session ← get
  match session.held with
  | some held => return held
  | none => initTable none

def forgetTable : Action Unit := change (fun session => { session with held := none })

/-- A slot of the default table. -/
def lookUp (index : Int) : Action (Option Opcode.Descriptor) := do
  let held ← defaultTable
  match held.table.slot? index with
  | some slot => return slot
  | none => throw .slot

end LogicSignature.Session
