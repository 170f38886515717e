import LogicSignature.Proofs.LoggerSetup

/-
Notes and the warnings of default files.

Tables and checks write notes of three components, none of them more serious than a warning, and do
nothing else to the logs. A default file that is passed over is warned about by a component of its
own, which is made for the first such file unless it is there already.
-/

namespace LogicSignature

namespace Journal

variable {journal : Journal} {record : Record} {layer : Layer} {name : Text} {sink : Sink}

theorem lines_eq_nil (hLogger : record.logger = sinkName layer name)
    (hSink : journal.sinkOf layer name = some sink)
    (hLow : record.severity.rank < sink.level.rank) : journal.lines record = [] := by
  unfold lines
  rw [hLogger, show journal.sinks.lookup (sinkName layer name) = some sink from hSink]
  exact if_pos hLow

theorem lines_ne_nil (hLogger : record.logger = sinkName layer name)
    (hSink : journal.sinkOf layer name = some sink) (hSingle : ∃ format, sink.writers = [format])
    (hHigh : sink.level.rank ≤ record.severity.rank) : journal.lines record ≠ [] := by
  obtain ⟨format, hWriters⟩ := hSingle
  unfold lines
  rw [hLogger, show journal.sinks.lookup (sinkName layer name) = some sink from hSink]
  simp only [Nat.not_lt.mpr hHigh, if_false, List.flatMap_cons, hWriters, List.map_cons,
    List.cons_append, ne_eq, reduceCtorEq, not_false_eq_true]

/-- The components that are there from the start write nothing that is less than an error. -/
def Hushed (journal : Journal) : Prop :=
  ∀ component ∈ Session.startingComponents,
    ∃ sink, journal.sinkOf component.1 component.2 = some sink ∧
      Severity.warning.rank < sink.level.rank

end Journal

namespace Session

open Journal (Severity Layer Note)

/-! ### Notes of the components of the start -/

/-- Nothing happened to the logs but notes of the components that are there from the start, of which
nothing is heard once they are hushed. -/
structure OnlyNotes (before after : Session) : Prop where
  journal : after.journal = before.journal
  hushed : before.journal.Hushed → after.diagnostics = before.diagnostics

theorem carries_onlyNotes : Carries OnlyNotes where
  refl := fun _ => ⟨rfl, fun _ => rfl⟩
  trans := by
    intro before between after hFirst hSecond
    refine ⟨hSecond.journal.trans hFirst.journal, fun hHushed => ?_⟩
    have hBetween : between.journal.Hushed := by
      rwa [hFirst.journal]
    rw [hSecond.hushed hBetween, hFirst.hushed hHushed]

section

variable {layer : Layer} {name : Text} {severity : Severity}
variable (hStarting : (layer, name) ∈ startingComponents)
variable (hSeverity : severity.rank ≤ Severity.warning.rank)

include hStarting hSeverity

theorem onlyNotes_say (session : Session) (written : Note) :
    OnlyNotes session
      (session.say (session.journal.lines (session.record layer name severity written))) := by
  refine ⟨rfl, fun hHushed => ?_⟩
  obtain ⟨sink, hSink, hLevel⟩ := hHushed _ hStarting
  have hNothing : session.journal.lines (session.record layer name severity written) = [] :=
    Journal.lines_eq_nil rfl hSink (Nat.lt_of_le_of_lt hSeverity hLevel)
  rw [hNothing]
  exact List.append_nil _

theorem onlyNotes_note (written : Note) :
    Leads OnlyNotes (note layer name severity written) :=
  fun session => onlyNotes_say hStarting hSeverity session written

end

theorem onlyNotes_timed {Result : Type} {layer : Layer} {name operation : Text}
    {action : Action Result} (hStarting : (layer, name) ∈ startingComponents)
    (hAction : Leads OnlyNotes action) : Leads OnlyNotes (timed layer name operation action) := by
  intro session
  have hEnding : ∀ succeeded,
      (Journal.operationSeverity succeeded).rank ≤ Severity.warning.rank := by
    intro succeeded
    cases succeeded <;> decide
  exact carries_onlyNotes.trans (hAction session)
    (onlyNotes_say hStarting (hEnding _) (perform action session).2 _)

theorem onlyNotes_loadLangSpec (path : Option Storage.Path) :
    Leads OnlyNotes (loadLangSpec path) :=
  .bind carries_onlyNotes (.ask carries_onlyNotes _) fun spec =>
    .bind carries_onlyNotes (onlyNotes_note (by decide) (by decide) _) fun _ =>
      .pure carries_onlyNotes spec

theorem onlyNotes_noteDropped (source : Text) (operations : List Operation) :
    Leads OnlyNotes (noteDropped source operations) := by
  induction operations with
  | nil => exact .pure carries_onlyNotes ()
  | cons operation rest ih =>
      exact .bind carries_onlyNotes (onlyNotes_note (by decide) (by decide) _) fun _ => ih

theorem onlyNotes_tableOf (spec : LangSpec) : Leads OnlyNotes (tableOf spec) :=
  .bind carries_onlyNotes (onlyNotes_noteDropped _ _) fun _ => .ask carries_onlyNotes _

theorem onlyNotes_buildTable (path : Option Storage.Path) : Leads OnlyNotes (buildTable path) :=
  onlyNotes_timed (by decide)
    (.bind carries_onlyNotes (onlyNotes_loadLangSpec path) onlyNotes_tableOf)

theorem onlyNotes_initTable (path : Option Storage.Path) : Leads OnlyNotes (initTable path) :=
  .bind carries_onlyNotes (onlyNotes_buildTable path) fun _ _ => ⟨rfl, fun _ => rfl⟩

theorem onlyNotes_defaultTable : Leads OnlyNotes defaultTable := by
  intro session
  cases hHeld : session.held with
  | none =>
      rw [perform_defaultTable_of_none hHeld]
      exact onlyNotes_initTable none session
  | some held =>
      rw [perform_defaultTable_of_some hHeld]
      exact carries_onlyNotes.refl session

theorem onlyNotes_validate (table : Option Opcode.Table) (limits : Program.Limits)
    (program : List UInt8) (arguments : List (List UInt8)) :
    Leads OnlyNotes (validate table limits program arguments) := by
  have hChecked : ∀ chosen, Leads OnlyNotes (validate (some chosen) limits program arguments) := by
    intro chosen
    refine .bind carries_onlyNotes (.pure carries_onlyNotes chosen) fun given => ?_
    dsimp only
    cases Program.validate given limits program arguments with
    | ok report =>
        exact .bind carries_onlyNotes (onlyNotes_note (by decide) (by decide) _)
          fun _ => .pure carries_onlyNotes report
    | error failure =>
        cases failure with
        | rejected rejection =>
            exact .bind carries_onlyNotes (onlyNotes_note (by decide) (by decide) _)
              fun _ => .throw carries_onlyNotes _
        | _ => exact .throw carries_onlyNotes _
  cases table with
  | some chosen => exact hChecked chosen
  | none =>
      intro session
      have hTable := onlyNotes_defaultTable session
      rw [perform_validate_none]
      rcases hDefault : perform defaultTable session with ⟨fault | held, after⟩
      · rw [hDefault] at hTable
        exact hTable
      · rw [hDefault] at hTable
        exact carries_onlyNotes.trans hTable (hChecked held.table after)

/-! ### Warnings about default files -/

/-- The warning about a default file. -/
def warningNote (path : Storage.Path) (fault : Fault) : Note :=
  { message := "Ignoring unreadable config file"
    context := [("path", .text path.text), ("error", .text fault.message)] }

/-- What is done about a default file that is passed over. -/
def warn (written : Note) : Action Unit := do
  let manager ← component .config "manager"
  note manager.layer manager.name .warning written

/-- Whether a default file is passed over: it is there, but its settings cannot be used. -/
def passedOver (session : Session) (path : Storage.Path) : Bool :=
  match session.storage.pathExists path, (perform (loadSettings path) session).1 with
  | .ok true, .error (.settings _) => true
  | _, _ => false

/-- The session in which the loading of default files first warns: the one behind the first file
that is passed over, unless a file in front of it ends the loading. -/
def warningMoment : List Storage.Path → Session → Option Session
  | [], _ => none
  | path :: rest, session =>
    if session.passedOver path then some (perform (loadSettings path) session).2
    else if session.obstructs path then none
    else warningMoment rest (perform (loadSettings path) session).2

theorem loadDefaultFile_of_passedOver {session : Session} {path : Storage.Path}
    (hPassed : session.passedOver path = true) :
    ∃ written, perform (loadDefaultFile path) session =
      perform (warn written) (perform (loadSettings path) session).2 := by
  unfold passedOver at hPassed
  split at hPassed
  · rename_i own hFound hFault
    refine ⟨warningNote path (.settings own), ?_⟩
    simp only [loadDefaultFile, perform_bind, perform_ask, hFound, proceed_ok, if_true,
      perform_tryCatch]
    rcases hLoad : perform (loadSettings path) session with ⟨fault | _, after⟩
    · rw [hLoad] at hFault
      cases hFault
      rfl
    · rw [hLoad] at hFault
      cases hFault
  · cases hPassed

theorem loadDefaultFile_of_not_passedOver {session : Session} {path : Storage.Path}
    (hPassed : session.passedOver path = false) :
    perform (loadDefaultFile path) session =
      (passOver (perform (loadSettings path) session).1,
        (perform (loadSettings path) session).2) := by
  unfold passedOver at hPassed
  simp only [loadDefaultFile, perform_bind, perform_ask]
  cases hFound : session.storage.pathExists path with
  | error fault =>
      rw [perform_loadSettings_of_error (verdictsAt_of_unknown hFound)]
      rfl
  | ok found =>
      cases found with
      | false =>
          rw [perform_loadSettings_of_error (verdictsAt_of_missing hFound)]
          rfl
      | true =>
          simp only [proceed_ok, if_true, perform_tryCatch]
          rcases hLoad : perform (loadSettings path) session with ⟨fault | _, after⟩
          · cases fault with
            | settings own =>
                rw [hFound, hLoad] at hPassed
                cases hPassed
            | _ => rfl
          · rfl

/-- What loading and warning lead to, the loading of default files leads to. -/
theorem Leads.loadDefaultFiles {Related : Session → Session → Prop} (hCarries : Carries Related)
    (hLoad : ∀ path, Leads Related (loadSettings path))
    (hWarn : ∀ written, Leads Related (warn written)) (paths : List Storage.Path) :
    Leads Related (Session.loadDefaultFiles paths) := by
  have hFile : ∀ path, Leads Related (loadDefaultFile path) := by
    intro path session
    cases hPassed : session.passedOver path with
    | true =>
        obtain ⟨written, hSame⟩ := loadDefaultFile_of_passedOver hPassed
        rw [hSame]
        exact hCarries.trans (hLoad path session) (hWarn written _)
    | false =>
        rw [loadDefaultFile_of_not_passedOver hPassed]
        exact hLoad path session
  induction paths with
  | nil => exact .pure hCarries ()
  | cons path rest ih => exact .bind hCarries (hFile path) fun _ => ih

section

variable {session : Session}

theorem journal_loadSettings (path : Storage.Path) : Keeps Session.journal (loadSettings path) :=
  keeps_loadSettings Session.journal (fun _ _ _ _ => rfl) path

theorem diagnostics_loadSettings (path : Storage.Path) :
    Keeps Session.diagnostics (loadSettings path) :=
  keeps_loadSettings Session.diagnostics (fun _ _ _ _ => rfl) path

theorem journal_warn_of_kept (written : Note) {manager : Journal.Component}
    (hKept : session.journal.kept .config "manager" = some manager) :
    (perform (warn written) session).2.journal = session.journal := by
  rw [warn, perform_bind, perform_component_of_kept hKept]
  rfl

theorem journal_warn (session : Session) (written : Note) :
    (perform (warn written) session).2.journal =
      (perform (component .config "manager") session).2.journal := by
  rw [warn, perform_bind]
  rcases perform (component .config "manager") session with ⟨fault | manager, after⟩
  · rfl
  · rfl

/-- A component that was asked for is kept. -/
theorem kept_component {layer : Layer} {name : Text} {made : Journal.Component} {after : Session}
    (hMade : perform (component layer name) session = (.ok made, after)) :
    after.journal.kept layer name = some made := by
  cases hKept : session.journal.kept layer name with
  | some found =>
      rw [perform_component_of_kept hKept] at hMade
      cases hMade
      exact hKept
  | none =>
      cases hSink : session.sinkFor session.journal.level session.journal.format with
      | error fault =>
          rw [perform_component_of_fault hKept hSink] at hMade
          cases hMade
      | ok sink =>
          rw [perform_component_of_new hKept hSink] at hMade
          cases hMade
          simp only [Journal.kept_renewOne, and_self, if_true]

/-- The journal is as it was if the component for the warnings was there. -/
def Unwritten (manager : Journal.Component) (before after : Session) : Prop :=
  before.journal.kept .config "manager" = some manager → after.journal = before.journal

theorem carries_unwritten (manager : Journal.Component) : Carries (Unwritten manager) where
  refl := fun _ _ => rfl
  trans := by
    intro before between after hFirst hSecond hKept
    have hJournal := hFirst hKept
    exact (hSecond (hJournal ▸ hKept)).trans hJournal

/-- Once the component for the warnings is there, the journal stays as it is. -/
theorem journal_loadDefaultFiles_of_kept {manager : Journal.Component}
    (hKept : session.journal.kept .config "manager" = some manager) (paths : List Storage.Path) :
    (perform (loadDefaultFiles paths) session).2.journal = session.journal :=
  Leads.loadDefaultFiles (carries_unwritten manager)
    (fun path now _ => journal_loadSettings path now)
    (fun written _ hNow => journal_warn_of_kept written hNow) paths session hKept

section

variable {path : Storage.Path} (rest : List Storage.Path)
variable (hPassed : session.passedOver path = false)

include hPassed

theorem perform_loadDefaultFiles_of_obstructs (hObstructs : session.obstructs path = true) :
    (perform (loadDefaultFiles (path :: rest)) session).2 =
      (perform (loadSettings path) session).2 := by
  rw [loadDefaultFiles, perform_bind, loadDefaultFile_of_not_passedOver hPassed]
  rw [obstructs] at hObstructs
  rcases hLeft : passOver (perform (loadSettings path) session).1 with fault | _
  · rfl
  · rw [hLeft] at hObstructs
    cases hObstructs

theorem perform_loadDefaultFiles_of_not_obstructs (hObstructs : session.obstructs path = false) :
    perform (loadDefaultFiles (path :: rest)) session =
      perform (loadDefaultFiles rest) (perform (loadSettings path) session).2 := by
  rw [loadDefaultFiles, perform_bind, loadDefaultFile_of_not_passedOver hPassed]
  rw [obstructs] at hObstructs
  rcases hLeft : passOver (perform (loadSettings path) session).1 with fault | _
  · rw [hLeft] at hObstructs
    cases hObstructs
  · rfl

end

/-- Without a warning, the loading of default files has nothing to do with the logs. -/
theorem loadDefaultFiles_of_no_warning {paths : List Storage.Path}
    (hNone : warningMoment paths session = none) :
    (perform (loadDefaultFiles paths) session).2.journal = session.journal ∧
      (perform (loadDefaultFiles paths) session).2.diagnostics = session.diagnostics := by
  induction paths generalizing session with
  | nil => exact ⟨rfl, rfl⟩
  | cons path rest ih =>
      have hJournal := journal_loadSettings path session
      have hDiagnostics := diagnostics_loadSettings path session
      rw [warningMoment] at hNone
      split at hNone
      · cases hNone
      · rename_i hPassed
        rw [Bool.not_eq_true] at hPassed
        cases hObstructs : session.obstructs path with
        | true =>
            rw [perform_loadDefaultFiles_of_obstructs rest hPassed hObstructs]
            exact ⟨hJournal, hDiagnostics⟩
        | false =>
            rw [if_neg (by simp [hObstructs])] at hNone
            rw [perform_loadDefaultFiles_of_not_obstructs rest hPassed hObstructs, ← hJournal,
              ← hDiagnostics]
            exact ih hNone

/-- The first warning finds the journal and the diagnostics as they were, and the other files are
loaded behind it. -/
theorem loadDefaultFiles_of_warning {paths : List Storage.Path} {moment : Session}
    (hMoment : warningMoment paths session = some moment) :
    moment.journal = session.journal ∧ moment.diagnostics = session.diagnostics ∧
      (session.settings.Declared → moment.settings.Declared) ∧
      ∃ written rest, perform (loadDefaultFiles paths) session =
        proceed (fun _ => loadDefaultFiles rest) (perform (warn written) moment) := by
  induction paths generalizing session with
  | nil => cases hMoment
  | cons path rest ih =>
      have hJournal := journal_loadSettings path session
      have hDiagnostics := diagnostics_loadSettings path session
      have hDeclared : session.settings.Declared →
          (perform (loadSettings path) session).2.settings.Declared := by
        intro hBefore
        rw [settings_loadSettings hBefore]
        exact hBefore.writeAll _
      rw [warningMoment] at hMoment
      split at hMoment
      · rename_i hPassed
        cases hMoment
        obtain ⟨written, hWarn⟩ := loadDefaultFile_of_passedOver hPassed
        refine ⟨hJournal, hDiagnostics, hDeclared, written, rest, ?_⟩
        rw [loadDefaultFiles, perform_bind, hWarn]
      · rename_i hPassed
        rw [Bool.not_eq_true] at hPassed
        cases hObstructs : session.obstructs path with
        | true =>
            rw [if_pos hObstructs] at hMoment
            cases hMoment
        | false =>
            rw [if_neg (by simp [hObstructs])] at hMoment
            obtain ⟨hSame, hHeard, hStays, hRun⟩ := ih hMoment
            rw [perform_loadDefaultFiles_of_not_obstructs rest hPassed hObstructs]
            exact ⟨hSame.trans hJournal, hHeard.trans hDiagnostics, fun hBefore =>
              hStays (hDeclared hBefore), hRun⟩

theorem journal_loadDefaultFiles_of_warning (hDeclared : session.settings.Declared)
    {paths : List Storage.Path} {moment : Session}
    (hMoment : warningMoment paths session = some moment) :
    (perform (loadDefaultFiles paths) session).2.journal =
      (perform (component .config "manager") moment).2.journal := by
  obtain ⟨_, _, hStays, written, rest, hRun⟩ := loadDefaultFiles_of_warning hMoment
  obtain ⟨made, after, hMade⟩ := exists_component_eq_ok (hStays hDeclared) .config "manager"
  have hWarned : (perform (warn written) moment).1 = .ok () := by
    rw [warn, perform_bind, hMade]
    rfl
  have hJournal := journal_warn moment written
  rw [hRun]
  rcases hDone : perform (warn written) moment with ⟨fault | _, warned⟩
  · rw [hDone] at hWarned
    cases hWarned
  · rw [hDone] at hJournal
    have hKept : warned.journal.kept .config "manager" = some made := by
      rw [show warned.journal = _ from hJournal, hMade]
      exact kept_component hMade
    rw [proceed_ok, journal_loadDefaultFiles_of_kept hKept]
    exact hJournal

end

theorem advances_warn (written : Note) : Leads Advances (warn written) :=
  .bind carries_advances (advances_component .config "manager") fun _ _ => .of_journal_eq rfl

theorem advances_loadDefaultSettings : Leads Advances loadDefaultSettings := by
  intro session
  rw [perform_loadDefaultSettings]
  exact Leads.loadDefaultFiles carries_advances (fun path => (journal_loadSettings path).advances)
    advances_warn session.defaultFiles session

end Session

end LogicSignature
