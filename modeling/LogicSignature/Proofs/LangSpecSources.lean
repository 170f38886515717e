import LogicSignature.Proofs.CommandOutcomes
import LogicSignature.Proofs.NameBytes
import LogicSignature.Proofs.SpecDocument

/-
Where the specification of a check comes from.

A check reads the file of its specification, whether the command line names it or the environment
does. The two ways differ in when the file is read and in the text that it is found under, and
neither shows in the outcome: loading settings and setting up logging come to the same end in both
sessions, and the same bytes name the same file.
-/

namespace LogicSignature

/-! ### Sessions that differ in their environments -/

namespace Session

/-- Two sessions with the same files and settings and no table yet, each with its own
environment. -/
structure Alike (first second : Settings.Environment) (left right : Session) : Prop where
  first : left.environment = first
  second : right.environment = second
  storage : left.storage = right.storage
  homeText : left.homeText = right.homeText
  settings : left.settings = right.settings
  unheld : left.held = none ∧ right.held = none
  declared : left.settings.Declared

/-- An action that comes to the same end in sessions that differ in their environments. -/
def Parallel {Result : Type} (action : Action Result) : Prop :=
  ∀ first second left right, Alike first second left right →
    (perform action left).1 = (perform action right).1 ∧
      Alike first second (perform action left).2 (perform action right).2

variable {Result Next : Type}

theorem Parallel.pure (result : Result) : Parallel (Pure.pure result : Action Result) :=
  fun _ _ _ _ hAlike => ⟨rfl, hAlike⟩

theorem Parallel.bind {action : Action Result} {next : Result → Action Next}
    (hAction : Parallel action) (hNext : ∀ result, Parallel (next result)) :
    Parallel (action >>= next) := by
  intro first second left right hAlike
  obtain ⟨hSame, hAfter⟩ := hAction first second left right hAlike
  rw [perform_bind, perform_bind]
  rcases hLeft : perform action left with ⟨result, afterLeft⟩
  rcases hRight : perform action right with ⟨other, afterRight⟩
  rw [hLeft, hRight] at hSame hAfter
  cases hSame
  cases result with
  | error fault => exact ⟨rfl, hAfter⟩
  | ok result => exact hNext result first second afterLeft afterRight hAfter

theorem settings_eq_of_withoutLogs {left right : Session}
    (hSame : withoutLogs left = withoutLogs right) : left.settings = right.settings := by
  have hKept : (withoutLogs left).settings = (withoutLogs right).settings := by rw [hSame]
  exact hKept

/-- The logs have no part in it. -/
theorem Alike.of_withoutLogs {first second : Settings.Environment}
    {left right left' right' : Session}
    (hAlike : Alike first second left right) (hLeft : withoutLogs left' = withoutLogs left)
    (hRight : withoutLogs right' = withoutLogs right) : Alike first second left' right' where
  first := (congrArg Session.environment hLeft).trans hAlike.first
  second := (congrArg Session.environment hRight).trans hAlike.second
  storage := (congrArg Session.storage hLeft).trans
    (hAlike.storage.trans (congrArg Session.storage hRight).symm)
  homeText := (congrArg Session.homeText hLeft).trans
    (hAlike.homeText.trans (congrArg Session.homeText hRight).symm)
  settings := (congrArg Session.settings hLeft).trans
    (hAlike.settings.trans (congrArg Session.settings hRight).symm)
  unheld := ⟨(congrArg Session.held hLeft).trans hAlike.unheld.1,
    (congrArg Session.held hRight).trans hAlike.unheld.2⟩
  declared := by
    rw [settings_eq_of_withoutLogs hLeft]
    exact hAlike.declared

theorem parallel_loadSettings (path : Storage.Path) : Parallel (loadSettings path) := by
  intro first second left right hAlike
  have hDeclared : right.settings.Declared := hAlike.settings ▸ hAlike.declared
  have hLeft := settings_loadSettings hAlike.declared path
  have hRight := settings_loadSettings hDeclared path
  have hKeeps : ∀ {View : Type} (view : Session → View),
      (∀ session settings loadedFiles nextFile,
        view { session with settings, loadedFiles, nextFile } = view session) →
      view left = view right →
      view (perform (loadSettings path) left).2 = view (perform (loadSettings path) right).2 := by
    intro View view hView hSame
    rw [keeps_loadSettings view hView path left, keeps_loadSettings view hView path right, hSame]
  refine ⟨result_loadSettings_congr hAlike.declared hDeclared hAlike.storage path, ?_⟩
  exact {
    first := (keeps_loadSettings environment (fun _ _ _ _ => rfl) path left).trans hAlike.first
    second := (keeps_loadSettings environment (fun _ _ _ _ => rfl) path right).trans hAlike.second
    storage := hKeeps storage (fun _ _ _ _ => rfl) hAlike.storage
    homeText := hKeeps homeText (fun _ _ _ _ => rfl) hAlike.homeText
    settings := by rw [hLeft, hRight, hAlike.settings, hAlike.storage]
    unheld := ⟨(keeps_loadSettings held (fun _ _ _ _ => rfl) path left).trans hAlike.unheld.1,
      (keeps_loadSettings held (fun _ _ _ _ => rfl) path right).trans hAlike.unheld.2⟩
    declared := hLeft ▸ hAlike.declared.writeAll _ }

theorem parallel_loadDefaultFile (path : Storage.Path) : Parallel (loadDefaultFile path) := by
  intro first second left right hAlike
  have hDeclared : right.settings.Declared := hAlike.settings ▸ hAlike.declared
  obtain ⟨hLeft, hLeftLogs⟩ := loadDefaultFile_spec hAlike.declared path
  obtain ⟨hRight, hRightLogs⟩ := loadDefaultFile_spec hDeclared path
  obtain ⟨hSame, hAfter⟩ := parallel_loadSettings path first second left right hAlike
  exact ⟨by rw [hLeft, hRight, hSame], hAfter.of_withoutLogs hLeftLogs hRightLogs⟩

theorem parallel_loadDefaultFiles (paths : List Storage.Path) :
    Parallel (loadDefaultFiles paths) := by
  induction paths with
  | nil => exact .pure ()
  | cons path rest ih => exact .bind (parallel_loadDefaultFile path) fun _ => ih

theorem parallel_loadDefaultSettings : Parallel loadDefaultSettings := by
  intro first second left right hAlike
  have hFiles : left.defaultFiles = right.defaultFiles := by
    rw [defaultFiles, defaultFiles, hAlike.homeText]
  rw [perform_loadDefaultSettings, perform_loadDefaultSettings, hFiles]
  exact parallel_loadDefaultFiles _ first second left right hAlike

theorem rebuild_of_declared {session : Session} (hDeclared : session.settings.Declared)
    (level : Option Journal.Severity) (format : Option Text)
    (components : List (Text × Journal.Component)) :
    (perform (rebuild level format components) session).1 = .ok () ∧
      withoutLogs (perform (rebuild level format components) session).2 = withoutLogs session := by
  induction components generalizing session with
  | nil => exact ⟨rfl, rfl⟩
  | cons entry rest ih =>
      obtain ⟨sink, hSink⟩ := exists_sinkFor_eq_ok hDeclared level format
      obtain ⟨key, old⟩ := entry
      simp only [rebuild, perform_bind, perform_newComponent old.layer old.name hSink, proceed_ok,
        perform_change]
      -- Only the journal has changed so far, so the settings are still as declared.
      exact ih hDeclared

section

variable (level : Option Journal.Severity) (format : Option Text)

theorem result_configureLogging {session : Session} (hDeclared : session.settings.Declared) :
    (perform (configureLogging level format) session).1 = .ok () := by
  have hOverridden : (session.override level format).settings.Declared := hDeclared
  rw [configureLogging_eq_rebuild]
  exact (rebuild_of_declared hOverridden level format _).1

theorem withoutLogs_configureLogging {session : Session} (hDeclared : session.settings.Declared) :
    withoutLogs (perform (configureLogging level format) session).2 = withoutLogs session := by
  have hOverridden : (session.override level format).settings.Declared := hDeclared
  rw [configureLogging_eq_rebuild]
  exact (rebuild_of_declared hOverridden level format _).2

theorem parallel_configureLogging : Parallel (configureLogging level format) := by
  intro first second left right hAlike
  have hDeclared : right.settings.Declared := hAlike.settings ▸ hAlike.declared
  refine ⟨?_, hAlike.of_withoutLogs (withoutLogs_configureLogging level format hAlike.declared)
    (withoutLogs_configureLogging level format hDeclared)⟩
  rw [result_configureLogging level format hAlike.declared,
    result_configureLogging level format hDeclared]

end

theorem mem_of_mem_upTo {stops : Storage.Path → Bool} {paths : List Storage.Path}
    {path : Storage.Path} (hMember : path ∈ upTo stops paths) : path ∈ paths := by
  induction paths with
  | nil => exact hMember
  | cons first rest ih =>
      rw [upTo] at hMember
      rcases List.mem_cons.mp hMember with rfl | hLater
      · exact List.mem_cons_self
      · split at hLater
        · cases hLater
        · exact List.mem_cons_of_mem _ (ih hLater)

end Session

namespace CommandLine

theorem parallel_prepare (given : Given) : Session.Parallel (prepare given) := by
  rw [prepare_eq]
  refine .bind ?_ fun _ => Session.parallel_configureLogging _ _
  unfold loading
  cases given.config.bind Argument.path? with
  | some path => exact Session.parallel_loadSettings path
  | none => exact Session.parallel_loadDefaultSettings

/-! ### Settings files -/

/-- The settings files that a command line leads to. -/
def settingsFiles (given : Given) (session : Session) : List Storage.Path :=
  ((given.config.bind Argument.path?).map fun path => [path]).getD session.defaultFiles

/-- Loading stores what the settings files hold and nothing else. -/
theorem exists_writes_loading {session : Session} (hDeclared : session.settings.Declared)
    (given : Given) :
    ∃ writes, (Session.perform (loading given) session).2.settings =
        session.settings.writeAll writes ∧
      ∀ write ∈ writes, ∃ path ∈ settingsFiles given session,
        write ∈ Session.writesAt session.storage path := by
  unfold loading settingsFiles
  cases given.config.bind Argument.path? with
  | some path =>
      exact ⟨_, Session.settings_loadSettings hDeclared path,
        fun write hWrite => ⟨path, List.mem_singleton.mpr rfl, hWrite⟩⟩
  | none =>
      refine ⟨(Session.upTo session.obstructs session.defaultFiles).flatMap
        (Session.writesAt session.storage), ?_, ?_⟩
      · rw [Session.perform_loadDefaultSettings]
        exact (Session.perform_loadDefaultFiles hDeclared session.defaultFiles).2.1
      · intro write hWrite
        obtain ⟨path, hPath, hHeld⟩ := List.mem_flatMap.mp hWrite
        exact ⟨path, Session.mem_of_mem_upTo hPath, hHeld⟩

/-- What no settings file stores is stored no more than before. -/
theorem stored_prepare {given : Given} {session ready : Session} {leaf : Settings.Leaf}
    (hDeclared : session.settings.Declared)
    (hFiles : ∀ path ∈ settingsFiles given session, ∀ content,
      (leaf, content) ∉ Session.writesAt session.storage path)
    (hReady : Session.perform (prepare given) session = (.ok (), ready)) :
    ready.settings.stored leaf = session.settings.stored leaf := by
  obtain ⟨writes, hSettings, hWrites⟩ := exists_writes_loading hDeclared given
  have hNone : Settings.lastTo leaf writes = none := by
    apply Settings.lastTo_eq_none
    intro content hMember
    obtain ⟨path, hPath, hWrite⟩ := hWrites _ hMember
    exact hFiles path hPath content hWrite
  rw [prepare_eq, Session.perform_bind] at hReady
  rcases hLoaded : Session.perform (loading given) session with ⟨fault | _, after⟩
  · rw [hLoaded] at hReady
    cases hReady
  · rw [hLoaded] at hReady hSettings
    have hAfter : after.settings.Declared := by
      rw [hSettings]
      exact hDeclared.writeAll writes
    have hLogs := Session.withoutLogs_configureLogging (askedLevel given) none hAfter
    rw [Session.proceed_ok] at hReady
    rw [hReady] at hLogs
    rw [Session.settings_eq_of_withoutLogs hLogs, hSettings, Settings.stored_writeAll, hNone,
      Option.none_or]

end CommandLine

/-! ### Tables by the bytes of their files -/

namespace Session

theorem exists_perform_noteDropped (source : Text) (operations : List Operation)
    (session : Session) :
    ∃ after, perform (noteDropped source operations) session = (.ok (), after) := by
  induction operations generalizing session with
  | nil => exact ⟨session, rfl⟩
  | cons operation rest ih =>
      rw [noteDropped, perform_bind, note, perform_change, proceed_ok]
      exact ih _

theorem toOption_tableNow (session : Session) (path : Option Storage.Path) :
    (session.tableNow path).toOption = (session.findLangSpec path).toOption.bind
      fun spec => (Opcode.Table.ofSpec spec).toOption := by
  unfold tableNow loadLangSpec
  rw [perform_bind, perform_bind, perform_ask]
  cases session.findLangSpec path with
  | error fault => rfl
  | ok spec =>
      rw [proceed_ok, perform_bind, note, perform_change, proceed_ok, perform_pure, proceed_ok,
        tableOf, perform_bind]
      obtain ⟨after, hNoted⟩ := exists_perform_noteDropped spec.source spec.dropped _
      rw [hNoted, proceed_ok, perform_ask]
      show _ = (Opcode.Table.ofSpec spec).toOption
      cases Opcode.Table.ofSpec spec <;> rfl

/-- The document in a file depends on the bytes alone, apart from faults. -/
theorem toOption_langSpecDocument (storage : Storage) (path : Storage.Path) :
    (langSpecDocument storage path).toOption =
      (storage.read path).toOption.bind fun bytes =>
        (Utf8.decode bytes).toOption.bind fun characters =>
          (Json.parse (Text.ofChars (Utf8.normaliseLines characters))).toOption := by
  unfold langSpecDocument
  cases storage.read path with
  | error fault =>
      dsimp only
      split <;> rfl
  | ok bytes =>
      simp only [pure_bind]
      show _ = (Utf8.decode bytes).toOption.bind fun characters =>
        (Json.parse (Text.ofChars (Utf8.normaliseLines characters))).toOption
      cases Utf8.decode bytes with
      | error fault => rfl
      | ok characters =>
          show _ = (Json.parse (Text.ofChars (Utf8.normaliseLines characters))).toOption
          dsimp only
          cases Json.parse (Text.ofChars (Utf8.normaliseLines characters)) with
          | ok document => rfl
          | error fault => cases fault <;> rfl

/-- The bytes that are read from an entry. -/
def bytesOfEntry : Storage.Entry → Option (List UInt8)
  | .file content => some content
  | .sink => some []
  | .directory => none

theorem toOption_read (storage : Storage) (path : Storage.Path) :
    (storage.read path).toOption = (storage.resolve path).toOption.bind bytesOfEntry := by
  unfold Storage.read
  cases storage.resolve path with
  | error obstacle => rfl
  | ok entry => cases entry <;> rfl

theorem toOption_langSpecFile (storage : Storage) (path : Storage.Path) :
    (langSpecFile storage path).toOption = (langSpecDocument storage path).toOption.bind
      fun document => (LangSpec.parse document path.text).toOption := by
  unfold langSpecFile
  cases langSpecDocument storage path with
  | error fault => rfl
  | ok document =>
      show _ = (LangSpec.parse document path.text).toOption
      rw [show (Except.ok document : Except Fault Value) = pure document from rfl, pure_bind]
      cases LangSpec.parse document path.text <;> rfl

/-- The table of the specification in a file, if there is one. -/
def tableOfFile (storage : Storage) (path : Storage.Path) : Option Opcode.Table :=
  (langSpecFile storage path).toOption.bind fun spec => (Opcode.Table.ofSpec spec).toOption

/-- The text that a specification was found under has no part in its table. -/
theorem table_of_parse (document : Value) (first second : Text) :
    ((LangSpec.parse document first).toOption.bind fun spec =>
        (Opcode.Table.ofSpec spec).toOption) =
      (LangSpec.parse document second).toOption.bind fun spec =>
        (Opcode.Table.ofSpec spec).toOption := by
  by_cases hValid : LangSpec.violations document = []
  · rw [LangSpec.parse_of_valid hValid, LangSpec.parse_of_valid hValid]
    rfl
  · rw [LangSpec.parse_of_invalid hValid, LangSpec.parse_of_invalid hValid]
    rfl

theorem tableOfFile_congr {storage : Storage} {left right : Storage.Path}
    (hResolve : storage.resolve left = storage.resolve right) :
    tableOfFile storage left = tableOfFile storage right := by
  have hRead : (storage.read left).toOption = (storage.read right).toOption := by
    rw [toOption_read, toOption_read, hResolve]
  have hDocument : (langSpecDocument storage left).toOption =
      (langSpecDocument storage right).toOption := by
    rw [toOption_langSpecDocument, toOption_langSpecDocument, hRead]
  rw [tableOfFile, tableOfFile, toOption_langSpecFile, toOption_langSpecFile, hDocument]
  cases (langSpecDocument storage right).toOption with
  | none => rfl
  | some document => exact table_of_parse document left.text right.text

/-- The table of the specification that a text names; the empty text names the bundled one. -/
def namedTable (storage : Storage) (word : Text) : Option Opcode.Table :=
  if word.isEmpty then (Opcode.Table.ofSpec LangSpec.bundled).toOption
  else tableOfFile storage (.ofText word)

/-- Texts with the same bytes name the same table. -/
theorem namedTable_congr (storage : Storage) {left right : Text} {bytes : List UInt8}
    (hLeft : Utf8.Named left bytes) (hRight : Utf8.Named right bytes) :
    namedTable storage left = namedTable storage right := by
  have hEmpty : left.isEmpty = right.isEmpty := by
    rw [Bool.eq_iff_iff, List.isEmpty_iff, List.isEmpty_iff, hLeft.eq_nil_iff, hRight.eq_nil_iff]
  rw [namedTable, namedTable, hEmpty, tableOfFile_congr (storage.resolve_ofText_congr hLeft hRight)]

theorem toOption_tableNow_file (session : Session) (path : Storage.Path) :
    (session.tableNow (some path)).toOption = tableOfFile session.storage path := by
  rw [toOption_tableNow]
  rfl

theorem toOption_currentTable {session : Session} (hDeclared : session.settings.Declared)
    (hUnheld : session.held = none) {word : Text}
    (hShown : session.shown .langSpecPath = .text word) :
    session.currentTable.toOption = namedTable session.storage word := by
  have hPath : session.configuredSpecPath =
      .ok (if word.isEmpty then none else some (.ofText word)) := by
    have hGet : session.settings.get session.environment .langSpecPath = .ok (.text word) := by
      rw [Settings.get_of_declared hDeclared, ← hShown]
      rfl
    rw [configuredSpecPath, hGet]
    cases word <;> rfl
  rw [currentTable, hUnheld]
  dsimp only
  rw [toOption_tableNow, findLangSpec, hPath, namedTable]
  cases word.isEmpty <;> rfl

end Session

namespace CommandLine

/-- The table that is selected by a specification on the command line, when the settings name
none. -/
theorem toOption_selectedTable_given {given : Given} {word : Text}
    (hGiven : given.langSpec = some (.text word)) {session : Session}
    (hDeclared : session.settings.Declared) (hUnheld : session.held = none)
    (hShown : session.shown .langSpecPath = .text []) :
    (selectedTable given session).toOption = Session.namedTable session.storage word := by
  rw [selectedTable, hGiven]
  dsimp only [Option.bind_some, Argument.path?]
  cases word with
  | nil => exact Session.toOption_currentTable hDeclared hUnheld hShown
  | cons point rest => exact Session.toOption_tableNow_file session _

theorem outcome_congr {format : Output.Format} {given other : Given} {left right : Session}
    (hText : given.text = other.text) (hArguments : given.arguments = other.arguments)
    (hStorage : left.storage = right.storage)
    (hTable : (selectedTable given left).toOption = (selectedTable other right).toOption)
    (answer : Program.Report → Except Fault Text) :
    outcomeOf format (checkReport given left >>= answer) =
      outcomeOf format (checkReport other right >>= answer) := by
  unfold checkReport
  rw [hText, hArguments, hStorage]
  cases Session.readProgram right.storage other.text with
  | error fault => rfl
  | ok program =>
      cases readArgumentBytes other.arguments with
      | error fault => rfl
      | ok arguments =>
          cases hLeft : selectedTable given left <;> cases hRight : selectedTable other right <;>
            rw [hLeft, hRight] at hTable <;> cases hTable
          -- There is no table in either session: the faults may differ, but neither is a verdict.
          · have hFirst := noVerdict_selectedTable given left _ hLeft
            have hSecond := noVerdict_selectedTable other right _ hRight
            exact (outcomeOf_noVerdict format hFirst).trans
              (outcomeOf_noVerdict format hSecond).symm
          · rfl

/-- Checks after the same preparation end alike if they select the same table. -/
theorem outcome_runRequest_congr (format : Output.Format) {given other : Given}
    {first second : Settings.Environment} {left right : Session}
    (hAlike : Session.Alike first second left right) (hPrepare : prepare given = prepare other)
    (hText : given.text = other.text) (hArguments : given.arguments = other.arguments)
    (hTable : ∀ readyLeft readyRight,
      Session.perform (prepare given) left = (.ok (), readyLeft) →
      Session.perform (prepare given) right = (.ok (), readyRight) →
      Session.Alike first second readyLeft readyRight →
      (selectedTable given readyLeft).toOption = (selectedTable other readyRight).toOption) :
    (runRequest format ⟨.check, given⟩ left).1 = (runRequest format ⟨.check, other⟩ right).1 := by
  obtain ⟨hSame, hAfter⟩ := parallel_prepare given first second left right hAlike
  rw [outcome_runRequest, outcome_runRequest]
  rcases hLeft : Session.perform (prepare given) left with ⟨result, readyLeft⟩
  rcases hRight : Session.perform (prepare given) right with ⟨result', readyRight⟩
  rw [hLeft, hRight] at hSame hAfter
  cases hSame
  have hOther : Session.perform (prepare other) right = (result, readyRight) := hPrepare ▸ hRight
  cases result with
  | error fault => rw [response_of_fault format hLeft, response_of_fault format hOther]
  | ok _ =>
      rw [response_of_check format hLeft, response_of_check format hOther]
      exact outcome_congr hText hArguments hAfter.storage
        (hTable readyLeft readyRight hLeft hRight hAfter) _

/-- A specification that the command line names and one that the environment names lead to the same
outcome of a check. -/
theorem check_with_given_or_configured_spec (storage : Storage) (homeText : Text)
    (environment configured : Settings.Environment) (clock : Session.Clock)
    (named plain : List Text) (given : Given) (file : Text)
    (hNamed : readLine named = .ok ⟨.check, { given with langSpec := some (.text file) }⟩)
    (hPlain : readLine plain = .ok ⟨.check, { given with langSpec := none }⟩)
    (hUnset : environment.lookup (Text.ofString "LSIG_LANGSPEC_PATH") = none)
    (hSet : environment.put "LSIG_LANGSPEC_PATH" file = .ok configured)
    (hFiles : ∀ path ∈ settingsFiles given (Session.start storage homeText environment clock),
      ∀ content, (.langSpecPath, content) ∉ Session.writesAt storage path) :
    (Session.perform (run named) (Session.start storage homeText environment clock)).1 =
      (Session.perform (run plain) (Session.start storage homeText configured clock)).1 := by
  cases hFormat : given.format with
  | none => rw [perform_run_of_blank hNamed _ hFormat, perform_run_of_blank hPlain _ hFormat]
  | some format =>
      rw [perform_run hNamed _ hFormat, perform_run hPlain _ hFormat]
      have hStart : Session.Alike environment configured
          (Session.start storage homeText environment clock)
          (Session.start storage homeText configured clock) :=
        ⟨rfl, rfl, rfl, rfl, rfl, ⟨rfl, rfl⟩, Settings.declared_initial⟩
      apply congrArg Except.ok
      refine outcome_runRequest_congr format hStart rfl rfl rfl ?_
      intro readyLeft readyRight hLeft hRight hReady
      obtain ⟨bytes, hBytes, hFound⟩ := Settings.Environment.lookup_of_put rfl hSet
      have hStored : readyLeft.settings.stored .langSpecPath = none :=
        stored_prepare Settings.declared_initial hFiles hLeft
      -- The settings show nothing to the one session, and to the other the text of the variable.
      have hShownLeft : readyLeft.shown .langSpecPath = .text [] := by
        rw [Session.shown, hReady.first, hStored, Settings.shownContent]
        simp only [Settings.Leaf.variableName, hUnset]
        rfl
      have hShownRight : readyRight.shown .langSpecPath = .text (Utf8.decodeName bytes) := by
        rw [Session.shown, hReady.second, Settings.shownContent]
        simp only [Settings.Leaf.variableName, hFound]
      have hDeclared : readyRight.settings.Declared := hReady.settings ▸ hReady.declared
      rw [toOption_selectedTable_given rfl hReady.declared hReady.unheld.1 hShownLeft]
      show _ = readyRight.currentTable.toOption
      rw [Session.toOption_currentTable hDeclared hReady.unheld.2 hShownRight, hReady.storage]
      exact Session.namedTable_congr _ hBytes (Utf8.named_decodeName bytes)

/-! ### A specification of version zero -/

/-- Files with a specification under which no program has a version that is supported. -/
def versionZeroFiles : Storage :=
  { entries := [([Storage.nameBytes "spec.json"],
      Session.textFile "\x7b\"EvalMaxVersion\": 0, \"Ops\": []\x7d")]
    working := []
    home := [Storage.nameBytes "home"] }

def versionZeroClock : Session.Clock := ⟨0, Binary64.zero false⟩

def versionNamingSpec : List Text := ["check", "0x01", "--langspec", "spec.json"]

def versionAsGiven : Given := { text := "0x01" }

/-- Version 1 is refused under the specification, whichever way it is found. -/
theorem version_refused_under_either_source :
    (Session.perform (run versionNamingSpec)
        (Session.start versionZeroFiles "home" [] versionZeroClock)).1 =
      (Session.perform (run versionAlone)
        (Session.start versionZeroFiles "home" [("LSIG_LANGSPEC_PATH", "spec.json")]
          versionZeroClock)).1 ∧
      (Session.perform (run versionNamingSpec)
        (Session.start versionZeroFiles "home" [] versionZeroClock)).1.toOption.map Outcome.code =
          some 2 := by
  have hNamed : (readLine versionNamingSpec).toOption.map id =
      some ⟨.check, { versionAsGiven with langSpec := some (.text "spec.json") }⟩ := by
    decide +kernel
  have hPlain : (readLine versionAlone).toOption.map id =
      some ⟨.check, { versionAsGiven with langSpec := none }⟩ := by
    decide +kernel
  obtain ⟨_, hNamed, rfl⟩ := exists_request hNamed
  obtain ⟨_, hPlain, rfl⟩ := exists_request hPlain
  have hEmpty : ∀ path ∈ settingsFiles versionAsGiven
      (Session.start versionZeroFiles "home" [] versionZeroClock),
      (Session.writesAt versionZeroFiles path).isEmpty = true := by
    decide +kernel
  refine ⟨?_, by decide +kernel⟩
  apply check_with_given_or_configured_spec versionZeroFiles "home" []
    [("LSIG_LANGSPEC_PATH", "spec.json")] versionZeroClock _ _ versionAsGiven "spec.json" hNamed
    hPlain rfl rfl
  intro path hPath content hWrite
  rw [List.isEmpty_iff.mp (hEmpty path hPath)] at hWrite
  cases hWrite

end CommandLine

end LogicSignature
