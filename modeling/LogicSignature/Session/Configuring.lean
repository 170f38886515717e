import LogicSignature.Session.Logging
import LogicSignature.Yaml.Reader
import LogicSignature.Yaml.Writer

/-
The settings of a session: looking up, storing, loading from files, and checking.
-/

namespace LogicSignature.Session

open Settings (Target)

/-- The content at a path: of a setting, of a section, of all settings, or of a property. The fields
of a form are looked for on the path, in vain. A method has no content. -/
def contentAt (path : Text) : Action Content :=
  ask (fun session =>
    match session.settings.resolve? path with
    | none | some (.method _) => .error (.settings (.unknownPath path))
    | some (.form firstField) => .error (.settings (.unknownPath (path ++ "." ++ firstField)))
    | some .whole =>
      match session.settings.content session.environment with
      | .ok content => .ok content
      | .error fault => .error (.ofReading fault)
    | some (.property content) => .ok content
    | some (.leaf leaf) =>
      match session.settings.get session.environment leaf with
      | .ok content => .ok content
      | .error fault => .error (.ofReading fault)
    | some (.group name) =>
      match session.settings.sectionContent session.environment name with
      | .ok content => .ok content
      | .error fault => .error (.ofReading fault))

def store (path : Text) (content : Content) : Action Unit := do
  let session ← get
  match session.settings.resolve? path with
  | some (.leaf leaf) =>
    match session.settings.set leaf content with
    | .ok settings => set { session with settings }
    | .error fault => throw (.ofStoring fault)
  | _ => throw (.settings (.unknownPath path))

def replaceSetting (path : Text) (new : Settings.Setting) : Action Unit := do
  let session ← get
  match session.settings.resolve? path with
  | some (.leaf leaf) => set { session with settings := session.settings.replace leaf new }
  | _ => throw (.settings (.unknownPath path))

/-- Forgets all that was stored or loaded. -/
def resetSettings : Action Unit :=
  change (fun session => { session with settings := Settings.initial, loadedFiles := [] })

/-- The data of a settings file, which gets a serial number. -/
def settingsData (storage : Storage) (path : Storage.Path) (serial : Nat) : Except Fault Datum := do
  let found ←
    match storage.pathExists path with
    | .ok found => pure found
    | .error fault => throw (.storage fault)
  unless found do throw (.settings (.missingFile path.text))
  let bytes ←
    match storage.read path with
    | .ok bytes => pure bytes
    | .error fault => throw (.storage fault)
  let (characters, undecodable) := Stream.decode bytes
  match Yaml.parse characters (undecodable.map Yaml.Fault.undecodable) with
  | .error .malformed => throw (.settings (.malformedFile path.text))
  | .error (.misfit cause) => throw (.misfit cause)
  | .error (.undecodable fault) => throw (.encoding fault)
  | .ok (graph, place) => return ⟨serial, graph, place⟩

/-- The entries of a settings file by their places. A file may hold nothing at all. -/
def settingsEntries (file : Datum) (path : Storage.Path) : Except Fault (List (Nat × Nat)) :=
  match file.node with
  | .atom .null => .ok []
  | .mapping entries => .ok entries
  | _ => .error (.settings (.notMapping path.text))

/-- Loads a settings file. Entries before a faulty one stay applied, and the file counts as loaded
only if there is none. -/
def loadSettings (path : Storage.Path) : Action Unit := do
  let file ← ask (fun session => settingsData session.storage path session.nextFile)
  let entries ← ask (fun _ => settingsEntries file path)
  let session ← get
  match Settings.applyEntries file entries session.settings with
  | (settings, none) =>
    set { session with
      settings
      loadedFiles := session.loadedFiles ++ [path]
      nextFile := session.nextFile + 1 }
  | (settings, some fault) => do
    set { session with settings, nextFile := session.nextFile + 1 }
    throw (.ofApplying fault)

/-- The files that are looked for when none is given. -/
def defaultFiles (session : Session) : List Storage.Path :=
  [Storage.Path.ofText "lsigcheck.yaml", Storage.Path.ofText "config/lsigcheck.yaml",
    ⟨.home session.homeText, [".lsigcheck", "config.yaml"]⟩]

/-- Loads one of the default files if it exists. A file whose settings cannot be used is passed over
with a warning; other faults are not. -/
def loadDefaultFile (path : Storage.Path) : Action Unit := do
  let found ← ask (fun session =>
    match session.storage.pathExists path with
    | .ok found => .ok found
    | .error fault => .error (.storage fault))
  if found then
    tryCatch (loadSettings path) fun fault =>
      match fault with
      | .settings _ => do
        let manager ← component .config "manager"
        note manager.layer manager.name .warning
          { message := "Ignoring unreadable config file"
            context := [("path", .text path.text), ("error", .text fault.message)] }
      | _ => throw fault

def loadDefaultFiles : List Storage.Path → Action Unit
  | [] => return ()
  | path :: rest => do
    loadDefaultFile path
    loadDefaultFiles rest

/-- Loads the default files that exist. -/
def loadDefaultSettings : Action Unit := do
  let session ← get
  loadDefaultFiles session.defaultFiles

/-- The complaints about the current values. -/
def settingsComplaints : Action (List Text) :=
  ask (fun session =>
    match session.settings.validate session.environment with
    | .ok complaints => .ok complaints
    | .error fault => .error (.check fault))

/-- All current contents. -/
def settingsContent : Action Content :=
  ask (fun session =>
    match session.settings.content session.environment with
    | .ok content => .ok content
    | .error fault => .error (.ofReading fault))

def yamlOf (content : Content) : Except Fault Text :=
  match Yaml.renderContent content with
  | .ok text => .ok text
  | .error fault => .error (.numeral fault)

/-- All current contents as YAML. -/
def settingsYaml : Action Text := do
  let content ← settingsContent
  ask (fun _ => yamlOf content)

/-- The environment with a variable set, or removed when there is no value. -/
def changedEnvironment (environment : Settings.Environment) (name : Text) (value : Option Text) :
    Except Fault Settings.Environment :=
  let changed :=
    match value with
    | some text => environment.put name text
    | none => environment.remove name
  match changed with
  | .ok new => .ok new
  | .error fault => .error (.variable fault)

/-- Sets or removes a variable of the environment. -/
def setVariable (name : Text) (value : Option Text) : Action Unit := do
  let environment ← ask (fun session => changedEnvironment session.environment name value)
  change (fun session => { session with environment })

/-! ### Files -/

/-- Writes a file or makes a directory. -/
def writeFile (path : Storage.Path) (entry : Storage.Entry) : Action Unit := do
  let storage ← ask (fun session =>
    match session.storage.write path entry with
    | .ok storage => .ok storage
    | .error fault => .error (.storage fault))
  change (fun session => { session with storage })

def removeFile (path : Storage.Path) : Action Unit := do
  let storage ← ask (fun session =>
    match session.storage.remove path with
    | .ok storage => .ok storage
    | .error fault => .error (.storage fault))
  change (fun session => { session with storage })

end LogicSignature.Session
