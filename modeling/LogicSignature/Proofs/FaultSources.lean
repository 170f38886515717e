import LogicSignature.CommandLine.Run
import LogicSignature.Proofs.TableLifecycle

/-
The faults that actions end with.

A verdict about a program is a fault that only the check itself raises. Loading settings, setting up
logging, reading programs and arguments and building tables fail in ways of their own, and so do all
commands other than the check.
-/

namespace LogicSignature

variable {Result Next : Type}

/-- An answer that fails only with faults of a kind. -/
def FailsOnly (Kind : Fault → Prop) (answer : Except Fault Result) : Prop :=
  ∀ fault, answer = .error fault → Kind fault

/-- A fault that is no verdict about a program. -/
def Fault.NoVerdict (fault : Fault) : Prop := ∀ failure, fault ≠ .program failure

section

variable {Kind : Fault → Prop}

theorem FailsOnly.ok (result : Result) : FailsOnly Kind (.ok result : Except Fault Result) := by
  intro fault hFault
  cases hFault

theorem FailsOnly.error {fault : Fault} (hKind : Kind fault) :
    FailsOnly Kind (.error fault : Except Fault Result) := by
  intro other hOther
  exact Except.error.inj hOther ▸ hKind

theorem FailsOnly.bind {answer : Except Fault Result} {next : Result → Except Fault Next}
    (hAnswer : FailsOnly Kind answer) (hNext : ∀ result, FailsOnly Kind (next result)) :
    FailsOnly Kind (answer >>= next) := by
  cases answer with
  | error fault => exact .error (hAnswer fault rfl)
  | ok result => exact hNext result

namespace Session

/-- An action that fails only with faults of a kind. -/
def Raises (Kind : Fault → Prop) (action : Action Result) : Prop :=
  ∀ session, FailsOnly Kind (perform action session).1

theorem Raises.pure (result : Result) : Raises Kind (Pure.pure result : Action Result) :=
  fun _ => .ok result

theorem Raises.throw {fault : Fault} (hKind : Kind fault) :
    Raises Kind (MonadExcept.throw fault : Action Result) :=
  fun _ => .error hKind

theorem Raises.ask {question : Session → Except Fault Result}
    (hQuestion : ∀ session, FailsOnly Kind (question session)) :
    Raises Kind (Session.ask question) :=
  hQuestion

theorem Raises.change (step : Session → Session) : Raises Kind (Session.change step) :=
  fun _ => .ok ()

theorem Raises.get : Raises Kind (MonadState.get : Action Session) :=
  fun session => .ok session

theorem Raises.set (new : Session) : Raises Kind (MonadStateOf.set new : Action PUnit) :=
  fun _ => .ok PUnit.unit

theorem Raises.bind {action : Action Result} {next : Result → Action Next}
    (hAction : Raises Kind action) (hNext : ∀ result, Raises Kind (next result)) :
    Raises Kind (action >>= next) := by
  intro session
  have hFirst := hAction session
  rw [perform_bind]
  rcases hDone : perform action session with ⟨fault | result, after⟩
  · rw [hDone] at hFirst
    exact .error (hFirst fault rfl)
  · exact hNext result after

theorem Raises.tryCatch {action : Action Result} {handler : Fault → Action Result}
    (hAction : Raises Kind action)
    (hHandler : ∀ fault, Kind fault → Raises Kind (handler fault)) :
    Raises Kind (MonadExcept.tryCatch action handler) := by
  intro session
  have hFirst := hAction session
  rw [perform_tryCatch]
  rcases hDone : perform action session with ⟨fault | result, after⟩
  · rw [hDone] at hFirst
    exact hHandler fault (hFirst fault rfl) after
  · exact .ok result

end Session

end

/-! ### Reading and applying settings -/

namespace Fault

theorem noVerdict_ofReading (fault : Settings.ReadFault) : (ofReading fault).NoVerdict := by
  intro failure hSame
  cases fault <;> cases hSame

theorem noVerdict_ofApplying (fault : Settings.ApplyFault) : (ofApplying fault).NoVerdict := by
  intro failure hSame
  cases fault with
  | keyKind kind => cases hSame
  | set cause => cases cause <;> cases hSame

end Fault

namespace Session

open Fault (NoVerdict)

theorem noVerdict_settingsData (storage : Storage) (path : Storage.Path) (serial : Nat) :
    FailsOnly NoVerdict (settingsData storage path serial) := by
  unfold settingsData
  cases storage.pathExists path with
  | error fault => exact .error nofun
  | ok found =>
      cases found with
      | false => exact .error nofun
      | true =>
          cases storage.read path with
          | error fault => exact .error nofun
          | ok bytes =>
              simp only [pure_bind, if_true]
              split
              · exact .error nofun
              · exact .error nofun
              · exact .error nofun
              · exact .ok _

theorem noVerdict_settingsEntries (file : Datum) (path : Storage.Path) :
    FailsOnly NoVerdict (settingsEntries file path) := by
  unfold settingsEntries
  split
  · exact .ok _
  · exact .ok _
  · exact .error nofun

theorem raises_loadSettings (path : Storage.Path) : Raises NoVerdict (loadSettings path) := by
  refine .bind (.ask fun session => noVerdict_settingsData _ _ _) fun file => ?_
  refine .bind (.ask fun _ => noVerdict_settingsEntries file path) fun entries => ?_
  refine .bind .get fun session => ?_
  rcases Settings.applyEntries file entries session.settings with ⟨settings, none | fault⟩
  · simp only
    exact .set _
  · simp only
    exact .bind (.set _) fun _ => .throw (Fault.noVerdict_ofApplying fault)

/-! ### Setting up logging -/

theorem noVerdict_configuredFormat (session : Session) :
    FailsOnly NoVerdict session.configuredFormat := by
  unfold configuredFormat
  split
  · exact .ok _
  · exact .ok _
  · exact .error (Fault.noVerdict_ofReading _)

theorem noVerdict_formatFor (session : Session) (level : Option Journal.Severity)
    (format : Option Text) : FailsOnly NoVerdict (session.formatFor level format) := by
  unfold formatFor
  split
  · split
    · exact noVerdict_configuredFormat session
    · exact .ok _
  · exact noVerdict_configuredFormat session

theorem raises_newComponent (layer : Journal.Layer) (name : Text) (level : Option Journal.Severity)
    (format : Option Text) : Raises NoVerdict (newComponent layer name level format) :=
  .bind (.ask fun session => .bind (noVerdict_formatFor session level format) fun _ => .ok _)
    fun _ => .bind .get fun _ => .bind (.set _) fun _ => .pure _

theorem raises_component (layer : Journal.Layer) (name : Text) :
    Raises NoVerdict (component layer name) := by
  refine .bind .get fun session => ?_
  cases session.journal.components.lookup (Journal.componentKey layer name) with
  | some found => exact .pure found
  | none =>
      exact .bind (raises_newComponent layer name _ _) fun _ => .bind (.change _) fun _ => .pure _

theorem raises_rebuild (level : Option Journal.Severity) (format : Option Text)
    (components : List (Text × Journal.Component)) :
    Raises NoVerdict (rebuild level format components) := by
  induction components with
  | nil => exact .pure ()
  | cons entry rest ih =>
      exact .bind (raises_newComponent _ _ level format) fun _ => .bind (.change _) fun _ => ih

theorem raises_configureLogging (level : Option Journal.Severity) (format : Option Text) :
    Raises NoVerdict (configureLogging level format) :=
  .bind (.change _) fun _ => .bind .get fun _ => raises_rebuild level format _

theorem raises_loadDefaultFile (path : Storage.Path) : Raises NoVerdict (loadDefaultFile path) := by
  refine .bind (.ask fun session => ?_) fun found => ?_
  · split
    · exact .ok _
    · exact .error nofun
  · cases found with
    | false => exact .pure ()
    | true =>
        refine .tryCatch (raises_loadSettings path) fun fault hFault => ?_
        cases fault with
        | settings cause =>
            exact .bind (raises_component _ _) fun manager => .change _
        | _ => exact .throw hFault

theorem raises_loadDefaultFiles (paths : List Storage.Path) :
    Raises NoVerdict (loadDefaultFiles paths) := by
  induction paths with
  | nil => exact .pure ()
  | cons path rest ih => exact .bind (raises_loadDefaultFile path) fun _ => ih

theorem raises_loadDefaultSettings : Raises NoVerdict loadDefaultSettings :=
  .bind .get fun session => raises_loadDefaultFiles session.defaultFiles

/-! ### Specifications and tables -/

theorem noVerdict_langSpecDocument (storage : Storage) (path : Storage.Path) :
    FailsOnly NoVerdict (langSpecDocument storage path) := by
  unfold langSpecDocument
  cases storage.read path with
  | error fault =>
      dsimp only
      split <;> exact .error nofun
  | ok bytes =>
      simp only [pure_bind]
      cases Utf8.decode bytes with
      | error fault => exact .error nofun
      | ok characters =>
          dsimp only
          cases Json.parse (Text.ofChars (Utf8.normaliseLines characters)) with
          | ok document => exact .ok _
          | error fault => cases fault <;> exact .error nofun

theorem noVerdict_langSpecFile (storage : Storage) (path : Storage.Path) :
    FailsOnly NoVerdict (langSpecFile storage path) := by
  refine .bind (noVerdict_langSpecDocument storage path) fun document => ?_
  cases LangSpec.parse document path.text with
  | ok spec => exact .ok _
  | error fault => exact .error nofun

theorem noVerdict_configuredSpecPath (session : Session) :
    FailsOnly NoVerdict session.configuredSpecPath := by
  unfold configuredSpecPath
  split
  · exact .error (Fault.noVerdict_ofReading _)
  · split
    · split
      · exact .ok _
      · exact .error nofun
    · exact .ok _

theorem noVerdict_findLangSpec (session : Session) (path : Option Storage.Path) :
    FailsOnly NoVerdict (session.findLangSpec path) := by
  cases path with
  | some given => exact noVerdict_langSpecFile session.storage given
  | none =>
      refine .bind (noVerdict_configuredSpecPath session) fun chosen => ?_
      cases chosen with
      | some file => exact noVerdict_langSpecFile session.storage file
      | none => exact .ok _

theorem raises_loadLangSpec (path : Option Storage.Path) : Raises NoVerdict (loadLangSpec path) :=
  .bind (.ask fun session => noVerdict_findLangSpec session path) fun spec =>
    .bind (.change _) fun _ => .pure spec

theorem raises_noteDropped (source : Text) (operations : List Operation) :
    Raises NoVerdict (noteDropped source operations) := by
  induction operations with
  | nil => exact .pure ()
  | cons operation rest ih => exact .bind (.change _) fun _ => ih

theorem raises_tableOf (spec : LangSpec) : Raises NoVerdict (tableOf spec) := by
  refine .bind (raises_noteDropped _ _) fun _ => .ask fun _ => ?_
  cases Opcode.Table.ofSpec spec with
  | ok table => exact .ok table
  | error fault => exact .error nofun

theorem noVerdict_tableNow (session : Session) (path : Option Storage.Path) :
    FailsOnly NoVerdict (session.tableNow path) :=
  Raises.bind (raises_loadLangSpec path) raises_tableOf session

/-! ### Programs and arguments -/

theorem noVerdict_readHex (given what : Text) : FailsOnly NoVerdict (readHex given what) := by
  unfold readHex
  split
  · exact .ok _
  · exact .error nofun

theorem noVerdict_readProgram (storage : Storage) (source : Text) :
    FailsOnly NoVerdict (readProgram storage source) := by
  unfold readProgram
  split
  · exact noVerdict_readHex source _
  · dsimp only
    split
    · exact .error nofun
    · exact noVerdict_readHex source _
    · split
      · exact .error nofun
      · split
        · refine .bind ?_ fun text => noVerdict_readHex text _
          unfold hexText
          split
          · exact .ok _
          · exact .error nofun
        · exact .ok _

end Session

/-! ### Commands -/

namespace CommandLine

open Fault (NoVerdict)
open Session (Raises)

theorem noVerdict_readArgumentBytes (arguments : List Argument) :
    FailsOnly NoVerdict (readArgumentBytes arguments) := by
  induction arguments with
  | nil => exact .ok []
  | cons argument rest ih =>
      have hFirst : FailsOnly NoVerdict (argumentBytes argument) := by
        cases argument with
        | text content => exact Session.noVerdict_readHex content _
        | blank => exact .error nofun
      rw [readArgumentBytes]
      cases hBytes : argumentBytes argument with
      | error fault => exact .error (hFirst fault hBytes)
      | ok bytes =>
          cases hOthers : readArgumentBytes rest with
          | error fault => exact .error (ih fault hOthers)
          | ok others => exact .ok _

theorem raises_prepare (given : Given) : Raises NoVerdict (prepare given) := by
  unfold prepare
  cases given.config.bind Argument.path? with
  | some path =>
      exact .bind (Session.raises_loadSettings path) fun _ => Session.raises_configureLogging _ _
  | none =>
      exact .bind Session.raises_loadDefaultSettings fun _ => Session.raises_configureLogging _ _

theorem raises_runLangSpecShow (given : Given) : Raises NoVerdict (runLangSpecShow given) := by
  refine .bind (.ask fun _ => ?_) fun path => .bind (Session.raises_loadLangSpec path) fun spec =>
    .bind (Session.raises_tableOf spec) fun table => .pure _
  unfold shownPath
  split
  · exact .ok _
  · exact .ok _
  · exact .error nofun

theorem noVerdict_runVarintDecode (given : Given) :
    FailsOnly NoVerdict (runVarintDecode given) := by
  refine .bind (Session.noVerdict_readHex _ _) fun bytes => ?_
  cases given.offset with
  | none => exact .error nofun
  | some offset =>
      dsimp only
      split
      · exact .error nofun
      · exact .ok _

theorem noVerdict_runVarintEncode (given : Given) :
    FailsOnly NoVerdict (runVarintEncode given) := by
  unfold runVarintEncode
  split
  · exact .error nofun
  · exact .ok _

theorem raises_contentAt (path : Text) : Raises NoVerdict (Session.contentAt path) := by
  refine .ask fun session => ?_
  cases session.settings.resolve? path with
  | none => exact .error nofun
  | some target =>
      cases target with
      | form firstField => exact .error nofun
      | method owner => exact .error nofun
      | property content => exact .ok content
      | _ =>
          dsimp only
          split
          · exact .ok _
          · exact .error (Fault.noVerdict_ofReading _)

theorem raises_settingsContent : Raises NoVerdict Session.settingsContent := by
  refine .ask fun session => ?_
  split
  · exact .ok _
  · exact .error (Fault.noVerdict_ofReading _)

theorem raises_runConfigValidate : Raises NoVerdict runConfigValidate := by
  refine .bind (.ask fun session => ?_) fun complaints => ?_
  · split
    · exact .ok _
    · exact .error nofun
  · cases complaints.isEmpty with
    | true => exact .pure _
    | false => exact .throw nofun

/-- Only the check passes a verdict. -/
theorem raises_perform {request : Request} (hOther : request.command ≠ .check) :
    Raises NoVerdict (perform request) := by
  obtain ⟨command, given⟩ := request
  cases command with
  | check => exact absurd rfl hOther
  | langSpecShow => exact .bind (raises_runLangSpecShow given) fun _ => .pure _
  | varintDecode => exact .bind (.ask fun _ => noVerdict_runVarintDecode given) fun _ => .pure _
  | varintEncode => exact .bind (.ask fun _ => noVerdict_runVarintEncode given) fun _ => .pure _
  | configGet => exact .bind (raises_contentAt _) fun _ => .pure _
  | configShow => exact raises_settingsContent
  | configValidate => exact .bind raises_runConfigValidate fun _ => .pure _
  | root | langSpec | varint | config => exact .throw nofun

theorem noVerdict_renderResult (format : Output.Format) (content : Content) :
    FailsOnly NoVerdict (renderResult format content) := by
  unfold renderResult
  split
  · exact .ok _
  · exact .error nofun

end CommandLine

end LogicSignature
