import LogicSignature.Settings.Setting

/-
The settings of the checker, in two sections: where the language specification comes from, and how
events are logged. Settings are named by dotted paths.

A path is followed name by name, and a name may also be that of a method, from which `__self__`
leads back to what has the method. So a setting has more paths than its own. Left out are the other
names that the things along a path have, those of forms and properties, and what a method is apart
from its owner: looking them up is refused here. None of them leads to a setting, so that storing is
refused there in any case.
-/

namespace LogicSignature

namespace Settings

def logLevels : List Text := ["debug", "info", "warning", "error", "critical"]

def logFormats : List Text := ["json", "text"]

inductive Leaf where
  | langSpecPath
  | logLevel
  | logFormat
deriving DecidableEq, Repr

/-- The groups of settings. -/
inductive Section where
  | langSpec
  | observability
deriving DecidableEq, Repr

def Section.name : Section → Text
  | .langSpec => "langspec"
  | .observability => "observability"

def Section.all : List Section := [.langSpec, .observability]

def Section.leaves : Section → List Leaf
  | .langSpec => [.langSpecPath]
  | .observability => [.logLevel, .logFormat]

def Leaf.name : Leaf → Text
  | .langSpecPath => "path"
  | .logLevel => "log_level"
  | .logFormat => "log_format"

def Section.ofName? (name : Text) : Option Section :=
  Section.all.find? (fun candidate => candidate.name == name)

def Section.leaf? (group : Section) (name : Text) : Option Leaf :=
  group.leaves.find? (fun leaf => leaf.name == name)

end Settings

/-- The current settings. -/
structure Settings where
  langSpecPath : Settings.Setting
  logLevel : Settings.Setting
  logFormat : Settings.Setting

namespace Settings

/-- The settings before anything is stored. -/
def initial : Settings :=
  { langSpecPath :=
      ⟨.text "", some (Text.ofString "LSIG_LANGSPEC_PATH"),
        "Path to langspec.json (empty uses the bundled spec)", some .isText, none⟩
    logLevel :=
      ⟨.text "warning", some (Text.ofString "LSIG_LOG_LEVEL"),
        "Log level (debug, info, warning, error, critical)", some (.oneOf logLevels), none⟩
    logFormat :=
      ⟨.text "json", some (Text.ofString "LSIG_LOG_FORMAT"), "Log format (json, text)",
        some (.oneOf logFormats), none⟩ }

def setting (settings : Settings) : Leaf → Setting
  | .langSpecPath => settings.langSpecPath
  | .logLevel => settings.logLevel
  | .logFormat => settings.logFormat

/-- Puts a setting in the place of another. -/
def replace (settings : Settings) (leaf : Leaf) (new : Setting) : Settings :=
  match leaf with
  | .langSpecPath => { settings with langSpecPath := new }
  | .logLevel => { settings with logLevel := new }
  | .logFormat => { settings with logFormat := new }

def get (settings : Settings) (environment : Environment) (leaf : Leaf) :
    Except ReadFault Content :=
  (settings.setting leaf).get environment

def set (settings : Settings) (leaf : Leaf) (content : Content) : Except SetFault Settings :=
  match (settings.setting leaf).set content with
  | .error fault => .error fault
  | .ok new => .ok (settings.replace leaf new)

/-! ### Paths -/

/-- What a path leads to: all settings, a section, a setting, a fixed property of one of these, the
form of one of these, or a method of one of these or of another method. A form is known by its first
field, which it does not hold itself. -/
inductive Target where
  | whole
  | group (name : Section)
  | leaf (leaf : Leaf)
  | property (content : Content)
  | form (firstField : Text)
  | method (owner : Target)

/-- The methods that all settings together, a section, a setting and a method have in common. -/
def commonMethods : List Text :=
  ["__delattr__", "__dir__", "__eq__", "__format__", "__ge__", "__getattribute__", "__getstate__",
    "__gt__", "__init__", "__le__", "__lt__", "__ne__", "__reduce__", "__reduce_ex__", "__repr__",
    "__setattr__", "__sizeof__", "__str__"]

/-- The name that leads from a method to its owner. -/
def ownerName : Text := "__self__"

/-- The names of the methods of a target. -/
def Target.methods : Target → List Text
  | .whole => "to_dict" :: "to_yaml" :: commonMethods
  | .group _ => commonMethods
  | .leaf _ => "get" :: "set" :: "_coerce" :: commonMethods
  | .method _ => "__call__" :: "__hash__" :: commonMethods
  | .property _ | .form _ => []

def textOrNull (text : Option Text) : Content := (text.map Content.text).getD .null

/-- What is said about the settings as a whole. -/
def summary : Text := "Root configuration."

/-- What is said about a section. -/
def Section.summary : Section → Text
  | .langSpec => "Where the opcode table comes from."
  | .observability => "Configuration for logging."

/-- What is said about every setting. -/
def Setting.summary : Text :=
  "\n    A single configuration value with metadata.\n\n"
    ++ "    Supports default values, environment variable binding and validation.\n    "

/-- The properties that everything along a path has. -/
def common? (summary firstField name : Text) : Option Target :=
  if name == "__doc__" then some (.property (.text summary))
  else if name == "__module__" then some (.property (.text "lsigcheck.config"))
  else if name == "__class__" then some (.form firstField)
  else none

def property? (setting : Setting) (name : Text) : Option Content :=
  if name == "default" then some setting.default
  else if name == "env_var" then some (textOrNull setting.variableName)
  else if name == "description" then some (.text setting.description)
  else if name == "_value" then some (setting.stored.getD .null)
  else if name == "validator" && setting.check.isNone then some .null
  else none

/-- Where a name that is not that of a method leads from a target. -/
def part? (settings : Settings) (target : Target) (name : Text) : Option Target :=
  match target with
  | .whole => (Section.ofName? name).map .group <|> common? summary Section.langSpec.name name
  | .group group =>
    (group.leaf? name).map .leaf
      <|> common? group.summary ((group.leaves.head?.map Leaf.name).getD []) name
  | .leaf leaf =>
    (property? (settings.setting leaf) name).map .property
      <|> common? Setting.summary "default" name
  | .method owner => if name == ownerName then some owner else none
  | .property _ | .form _ => none

/-- Where one name of a path leads from a target. -/
def step? (settings : Settings) (target : Target) (name : Text) : Option Target :=
  if target.methods.contains name then some (.method target) else settings.part? target name

/-- Where several names of a path lead from a target. -/
def walk? (settings : Settings) : Target → List Text → Option Target
  | target, [] => some target
  | target, name :: rest => (settings.step? target name).bind (settings.walk? · rest)

/-- What a path leads to, if anything. -/
def resolve? (settings : Settings) (path : Text) : Option Target :=
  settings.walk? .whole (Text.splitOn '.' path)

/-- The contents of several settings, by name. -/
def contents (settings : Settings) (environment : Environment) :
    List Leaf → Except ReadFault (List (Text × Content))
  | [] => .ok []
  | leaf :: rest =>
    match settings.get environment leaf with
    | .error fault => .error fault
    | .ok content =>
      match settings.contents environment rest with
      | .error fault => .error fault
      | .ok others => .ok ((leaf.name, content) :: others)

def sectionContent (settings : Settings) (environment : Environment) (group : Section) :
    Except ReadFault Content :=
  match settings.contents environment group.leaves with
  | .error fault => .error fault
  | .ok fields => .ok (.record fields)

/-- The contents of several sections, by name. -/
def sectionContents (settings : Settings) (environment : Environment) :
    List Section → Except ReadFault (List (Text × Content))
  | [] => .ok []
  | group :: rest =>
    match settings.sectionContent environment group with
    | .error fault => .error fault
    | .ok content =>
      match settings.sectionContents environment rest with
      | .error fault => .error fault
      | .ok others => .ok ((group.name, content) :: others)

/-- All contents as one record. -/
def content (settings : Settings) (environment : Environment) : Except ReadFault Content :=
  match settings.sectionContents environment Section.all with
  | .error fault => .error fault
  | .ok fields => .ok (.record fields)

/-! ### Validation -/

/-- The complaint about a content that does not pass its check. -/
def refusal (path : Text) (content : Content) : Text :=
  match content.shown with
  | .ok shown => path ++ ": validation failed for value " ++ shown
  | .error fault => path ++ ": " ++ fault.message

/-- The complaint about one setting, if there is one. A variable that gives no content is a
complaint; a content of a kind to which the check does not apply is a fault. -/
def complaint (settings : Settings) (environment : Environment) (group : Section) (leaf : Leaf) :
    Except CheckFault (Option Text) :=
  let path := group.name ++ "." ++ leaf.name
  let setting := settings.setting leaf
  match setting.get environment with
  | .error fault => .ok (some (path ++ ": " ++ fault.message))
  | .ok content =>
    match setting.check with
    | none => .ok none
    | some check =>
      match check.passes content with
      | .error fault => .error fault
      | .ok true => .ok none
      | .ok false => .ok (some (refusal path content))

def complaintsAbout (settings : Settings) (environment : Environment) :
    List (Section × Leaf) → Except CheckFault (List Text)
  | [] => .ok []
  | (group, leaf) :: rest =>
    match settings.complaint environment group leaf with
    | .error fault => .error fault
    | .ok found =>
      match settings.complaintsAbout environment rest with
      | .error fault => .error fault
      | .ok others => .ok (found.toList ++ others)

def allLeaves : List (Section × Leaf) :=
  Section.all.flatMap (fun group => group.leaves.map (fun leaf => (group, leaf)))

/-- The complaints about all settings. -/
def validate (settings : Settings) (environment : Environment) :
    Except CheckFault (List Text) :=
  settings.complaintsAbout environment allLeaves

/-! ### Loading -/

/-- Why an entry of a file cannot be applied. -/
inductive ApplyFault where
  | keyKind (kind : Text)
  | set (fault : SetFault)
deriving DecidableEq, Repr

/-- The fault of the first key that is no text, if there is one. -/
def keyFault? (file : Datum) (keys : List Nat) : Option ApplyFault :=
  keys.findSome? fun key =>
    match file.graph.atomAt key with
    | .text _ => none
    | other => some (.keyKind other.kindName)

/-- The fault of an entry that names no setting. What stands below the name of the form is not
applied, but looked through. -/
def formFault? (file : Datum) (name : Text) (place : Nat) : Option ApplyFault :=
  match file.graph.node place with
  | .mapping entries => if name == "__class__" then keyFault? file (entries.map Prod.fst) else none
  | _ => none

/-- Applies the entries of a section, given by their places in a file, one after the other, up to
the first fault. Entries that name no setting are ignored. The settings so far are kept in either
case. -/
def applyLeaves (file : Datum) (group : Section) :
    List (Nat × Nat) → Settings → Settings × Option ApplyFault
  | [], settings => (settings, none)
  | (key, place) :: rest, settings =>
    match file.graph.atomAt key with
    | .text name =>
      match group.leaf? name with
      | none =>
        match formFault? file name place with
        | some fault => (settings, some fault)
        | none => applyLeaves file group rest settings
      | some leaf =>
        match settings.set leaf (Content.ofDatum (file.goTo place)) with
        | .error fault => (settings, some (.set fault))
        | .ok next => applyLeaves file group rest next
    | other => (settings, some (.keyKind other.kindName))

/-- Applies the entries of a file, one after the other, up to the first fault. -/
def applyEntries (file : Datum) :
    List (Nat × Nat) → Settings → Settings × Option ApplyFault
  | [], settings => (settings, none)
  | (key, place) :: rest, settings =>
    match file.graph.atomAt key with
    | .text name =>
      match Section.ofName? name, file.graph.node place with
      | some group, .mapping entries =>
        match applyLeaves file group entries settings with
        | (next, some fault) => (next, some fault)
        | (next, none) => applyEntries file rest next
      | _, _ =>
        match formFault? file name place with
        | some fault => (settings, some fault)
        | none => applyEntries file rest settings
    | other => (settings, some (.keyKind other.kindName))

end Settings

end LogicSignature
