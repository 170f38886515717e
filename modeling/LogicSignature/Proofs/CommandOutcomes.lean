import LogicSignature.Proofs.CommandRuns
import LogicSignature.Proofs.FaultSources
import LogicSignature.Proofs.FlatRecords
import LogicSignature.Proofs.ProgramSources

/-
How command lines end.

A check that loads all it needs comes to a verdict of the validator. Accepted programs end with code
0 and the report, rejected ones with code 2 and the rejection, and whatever else fails, in a check
or in another command, ends with code 1 and no output. A command line that leaves the format blank
has no outcome at all.
-/

namespace LogicSignature

/-! ### Validation in a session -/

namespace Session

variable (limits : Program.Limits) (program : List UInt8) (arguments : List (List UInt8))

/-- The verdict about a program as the result of an action. -/
def verdict (table : Opcode.Table) : Except Fault Program.Report :=
  (Program.validate table limits program arguments).mapError Fault.program

theorem result_validate_some (table : Opcode.Table) (session : Session) :
    (perform (validate (some table) limits program arguments) session).1 =
      verdict limits program arguments table := by
  simp only [validate, verdict, pure_bind]
  cases Program.validate table limits program arguments with
  | ok report => rfl
  | error failure => cases failure <;> rfl

/-- The table that is kept, or else the one that the settings lead to. -/
def currentTable (session : Session) : Except Fault Opcode.Table :=
  match session.held with
  | some held => .ok held.table
  | none => session.tableNow none

theorem result_validate_none (session : Session) :
    (perform (validate none limits program arguments) session).1 =
      session.currentTable >>= verdict limits program arguments := by
  have hTable : (perform defaultTable session).1.map HeldTable.table = session.currentTable := by
    unfold currentTable
    cases hHeld : session.held with
    | some held => rw [perform_defaultTable_of_some hHeld]; rfl
    | none => rw [perform_defaultTable_of_none hHeld, table_initTable]
  rw [perform_validate_none, ← hTable]
  rcases perform defaultTable session with ⟨fault | held, after⟩
  · rfl
  · exact result_validate_some limits program arguments held.table after

end Session

namespace CommandLine

open Fault (NoVerdict)

/-! ### The result of a check -/

/-- The table that a program is checked against: that of the specification that is given, else the
current one. -/
def selectedTable (given : Given) (session : Session) : Except Fault Opcode.Table :=
  match given.langSpec.bind Argument.path? with
  | some path => session.tableNow (some path)
  | none => session.currentTable

/-- The report about the program that is given. -/
def checkReport (given : Given) (session : Session) : Except Fault Program.Report := do
  let program ← Session.readProgram session.storage given.text
  let arguments ← readArgumentBytes given.arguments
  let table ← selectedTable given session
  Session.verdict {} program arguments table

def acceptedFields (report : Program.Report) : List (Text × Value) :=
  ("valid", .boolean true) :: Session.reportFields report

theorem perform_givenTable_of_none {given : Given}
    (hNone : given.langSpec.bind Argument.path? = none) (session : Session) :
    Session.perform (givenTable given) session = (.ok none, session) := by
  unfold givenTable
  rw [hNone]
  rfl

theorem perform_givenTable_of_some {given : Given} {path : Storage.Path}
    (hPath : given.langSpec.bind Argument.path? = some path) (session : Session) :
    Session.perform (givenTable given) session =
      Session.proceed (fun table => pure (some table))
        (Session.perform (Session.loadLangSpec (some path) >>= Session.tableOf) session) := by
  unfold givenTable
  rw [hPath]
  simp only [Session.perform_bind]
  rcases Session.perform (Session.loadLangSpec (some path)) session with ⟨fault | spec, after⟩ <;>
    simp only [Session.proceed_ok, Session.proceed_error, Session.perform_bind]

theorem result_givenTable_validate (given : Given) (program : List UInt8)
    (arguments : List (List UInt8)) (session : Session) :
    (Session.perform (givenTable given >>= fun table =>
      Session.validate table {} program arguments) session).1 =
      selectedTable given session >>= Session.verdict {} program arguments := by
  rw [Session.perform_bind]
  unfold selectedTable
  cases hPath : given.langSpec.bind Argument.path? with
  | none =>
      rw [perform_givenTable_of_none hPath, Session.proceed_ok]
      exact Session.result_validate_none {} program arguments session
  | some path =>
      rw [perform_givenTable_of_some hPath]
      dsimp only [Session.tableNow]
      rcases Session.perform (Session.loadLangSpec (some path) >>= Session.tableOf) session with
        ⟨fault | table, after⟩
      · rfl
      · exact Session.result_validate_some {} program arguments table after

theorem result_runCheck (given : Given) (session : Session) :
    (Session.perform (runCheck given) session).1 =
      (checkReport given session).map fun report => .record (acceptedFields report) := by
  unfold runCheck checkReport
  rw [Session.perform_bind, Session.perform_loadProgram]
  cases Session.readProgram session.storage given.text with
  | error fault => rfl
  | ok program =>
      rw [Session.proceed_ok, Session.perform_bind, Session.perform_ask]
      cases readArgumentBytes given.arguments with
      | error fault => rfl
      | ok arguments =>
          have hChecked := result_givenTable_validate given program arguments session
          rw [Session.proceed_ok, ← bind_assoc, Session.perform_bind]
          show _ = Except.map _
            (selectedTable given session >>= Session.verdict {} program arguments)
          rw [← hChecked]
          rcases Session.perform (givenTable given >>= fun table =>
            Session.validate table {} program arguments) session with ⟨fault | report, after⟩
          · rfl
          · rfl

/-! ### The verdict -/

/-- Settings, program, arguments and table are loaded, and the validator comes to a verdict. -/
def Checked (given : Given) (session : Session)
    (verdict : Except Program.Failure Program.Report) : Prop :=
  ∃ ready program arguments table,
    Session.perform (prepare given) session = (.ok (), ready) ∧
    Session.readProgram ready.storage given.text = .ok program ∧
    readArgumentBytes given.arguments = .ok arguments ∧
    selectedTable given ready = .ok table ∧
    Program.validate table {} program arguments = verdict

theorem noVerdict_selectedTable (given : Given) (session : Session) :
    FailsOnly NoVerdict (selectedTable given session) := by
  unfold selectedTable Session.currentTable
  split
  · exact Session.noVerdict_tableNow session _
  · split
    · exact .ok _
    · exact Session.noVerdict_tableNow session none

/-- The report of a check, or the reason against it, comes from the validator, and any other fault
from what was loaded before. -/
theorem checkReport_cases (given : Given) (ready : Session) :
    (∃ fault, checkReport given ready = .error fault ∧ fault.NoVerdict) ∨
      ∃ program arguments table,
        Session.readProgram ready.storage given.text = .ok program ∧
        readArgumentBytes given.arguments = .ok arguments ∧
        selectedTable given ready = .ok table ∧
        checkReport given ready = Session.verdict {} program arguments table := by
  unfold checkReport
  cases hProgram : Session.readProgram ready.storage given.text with
  | error fault =>
      exact .inl ⟨fault, rfl, Session.noVerdict_readProgram _ _ fault hProgram⟩
  | ok program =>
      cases hArguments : readArgumentBytes given.arguments with
      | error fault => exact .inl ⟨fault, rfl, noVerdict_readArgumentBytes _ fault hArguments⟩
      | ok arguments =>
          cases hTable : selectedTable given ready with
          | error fault => exact .inl ⟨fault, rfl, noVerdict_selectedTable given ready fault hTable⟩
          | ok table => exact .inr ⟨program, arguments, table, rfl, rfl, rfl, rfl⟩

theorem checked_iff {given : Given} {session ready : Session}
    (hReady : Session.perform (prepare given) session = (.ok (), ready))
    (verdict : Except Program.Failure Program.Report) :
    Checked given session verdict ↔ checkReport given ready = verdict.mapError Fault.program := by
  constructor
  · rintro ⟨other, program, arguments, table, hOther, hProgram, hArguments, hTable, hVerdict⟩
    rw [hReady] at hOther
    cases hOther
    unfold checkReport
    rw [hProgram, hArguments, hTable, ← hVerdict]
    rfl
  · intro hReport
    rcases checkReport_cases given ready with ⟨fault, hFault, hNoVerdict⟩ |
      ⟨program, arguments, table, hProgram, hArguments, hTable, hChecked⟩
    · rw [hFault] at hReport
      cases verdict with
      | ok report => cases hReport
      | error failure => exact absurd (Except.error.inj hReport) (hNoVerdict failure)
    · refine ⟨ready, program, arguments, table, hReady, hProgram, hArguments, hTable, ?_⟩
      rw [hChecked, Session.verdict] at hReport
      cases hSame : Program.validate table {} program arguments <;> cases verdict <;>
        rw [hSame] at hReport <;> cases hReport <;> rfl

theorem Checked.unique {given : Given} {session : Session}
    {first second : Except Program.Failure Program.Report} (hFirst : Checked given session first)
    (hSecond : Checked given session second) : first = second := by
  obtain ⟨_, _, _, _, hReady, hProgram, hArguments, hTable, hVerdict⟩ := hFirst
  obtain ⟨_, _, _, _, hReady', hProgram', hArguments', hTable', hVerdict'⟩ := hSecond
  rw [hReady] at hReady'
  cases hReady'
  rw [hProgram] at hProgram'
  cases hProgram'
  rw [hArguments] at hArguments'
  cases hArguments'
  rw [hTable] at hTable'
  cases hTable'
  rw [← hVerdict, hVerdict']

theorem not_checked_of_fault {given : Given} {session after : Session} {fault : Fault}
    (hFault : Session.perform (prepare given) session = (.error fault, after))
    (verdict : Except Program.Failure Program.Report) : ¬ Checked given session verdict := by
  rintro ⟨ready, _, _, _, hReady, _⟩
  rw [hFault] at hReady
  cases hReady

/-- When something cannot be loaded, there is no verdict at all. -/
theorem not_checked_of_unloaded {given : Given} {session ready : Session} {fault : Fault}
    (hReady : Session.perform (prepare given) session = (.ok (), ready))
    (hFault : checkReport given ready = .error fault) (hNoVerdict : fault.NoVerdict)
    (verdict : Except Program.Failure Program.Report) : ¬ Checked given session verdict := by
  intro hChecked
  rw [checked_iff hReady, hFault] at hChecked
  cases verdict with
  | ok report => cases hChecked
  | error failure => exact hNoVerdict failure (Except.error.inj hChecked)

/-! ### Texts of results -/

theorem exists_renderResult {fields : List (Text × Value)} (hFlat : FlatFields fields)
    (format : Output.Format) :
    ∃ text, renderResult format (.value (.record fields)) = .ok text := by
  obtain ⟨text, hText⟩ := exists_render hFlat format
  refine ⟨text ++ "\n", ?_⟩
  rw [renderResult, hText]

theorem exists_renderResult_rejection (rejection : Program.Rejection) (format : Output.Format) :
    ∃ text, renderResult format (rejectionResult rejection) = .ok text := by
  apply exists_renderResult
  unfold FlatFields
  simp only [List.forall_mem_cons]
  exact ⟨.boolean false, .text _, .text _, fun _ hNone => nomatch hNone⟩

theorem exists_renderResult_accepted {given : Given} {session : Session} {report : Program.Report}
    (hChecked : Checked given session (.ok report)) (format : Output.Format) :
    ∃ text, renderResult format (.value (.record (acceptedFields report))) = .ok text := by
  obtain ⟨_, _, _, _, _, _, _, _, hValid⟩ := hChecked
  apply exists_renderResult
  exact List.forall_mem_cons.mpr ⟨.boolean true, Program.flat_reportFields hValid⟩

/-! ### The outcome of a request -/

/-- The outcome of a response. -/
def outcomeOf (format : Output.Format) : Except Fault Text → Outcome
  | .ok text => ⟨acceptedCode, text⟩
  | .error (.program (.rejected rejection)) =>
    (renderResult format (rejectionResult rejection)).toOption.elim ⟨failedCode, []⟩
      fun text => ⟨rejectedCode, text⟩
  | .error _ => ⟨failedCode, []⟩

theorem outcome_runRequest (format : Output.Format) (request : Request) (session : Session) :
    (runRequest format request session).1 =
      outcomeOf format (Session.perform (respond format request) session).1 := by
  unfold runRequest
  rcases Session.perform (respond format request) session with ⟨fault | text, after⟩
  · cases fault with
    | program failure =>
        cases failure with
        | rejected rejection =>
            dsimp only [outcomeOf]
            cases renderResult format (rejectionResult rejection) <;> rfl
        | _ => dsimp only; split <;> rfl
    | _ => dsimp only; split <;> rfl
  · rfl

theorem outcomeOf_noVerdict (format : Output.Format) {fault : Fault} (hFault : fault.NoVerdict) :
    outcomeOf format (.error fault) = ⟨1, []⟩ := by
  cases fault with
  | program failure => exact absurd rfl (hFault failure)
  | _ => rfl

theorem response_of_fault (format : Output.Format) {request : Request} {session after : Session}
    {fault : Fault}
    (hFault : Session.perform (prepare request.given) session = (.error fault, after)) :
    (Session.perform (respond format request) session).1 = .error fault := by
  rw [respond, Session.perform_bind, hFault]
  rfl

theorem response_of_ready (format : Output.Format) {request : Request} {session ready : Session}
    (hReady : Session.perform (prepare request.given) session = (.ok (), ready)) :
    (Session.perform (respond format request) session).1 =
      (Session.perform (perform request) ready).1 >>= renderResult format := by
  rw [respond, Session.perform_bind, hReady, Session.proceed_ok, Session.perform_bind]
  rcases Session.perform (perform request) ready with ⟨fault | content, after⟩ <;> rfl

theorem response_of_check (format : Output.Format) {given : Given} {session ready : Session}
    (hReady : Session.perform (prepare given) session = (.ok (), ready)) :
    (Session.perform (respond format ⟨.check, given⟩) session).1 =
      checkReport given ready >>= fun report =>
        renderResult format (.value (.record (acceptedFields report))) := by
  have hContent : (Session.perform (perform ⟨.check, given⟩) ready).1 =
      (checkReport given ready).map fun report => .value (.record (acceptedFields report)) := by
    show (Session.perform (runCheck given >>= fun value => pure (Content.value value)) ready).1 = _
    have hResult := result_runCheck given ready
    rw [Session.perform_bind]
    rcases hDone : Session.perform (runCheck given) ready with ⟨fault | value, after⟩
    · rw [hDone] at hResult
      cases hReport : checkReport given ready <;> rw [hReport] at hResult <;> cases hResult
      rfl
    · rw [hDone] at hResult
      cases hReport : checkReport given ready <;> rw [hReport] at hResult <;> cases hResult
      rfl
  rw [response_of_ready format hReady, hContent]
  cases checkReport given ready <;> rfl

/-- How a check ends: with 0 and the report for an accepted program, with 2 and the rejection for a
rejected one, and with 1 and no output otherwise. -/
structure CheckOutcome (format : Output.Format) (given : Given) (session : Session)
    (outcome : Outcome) : Prop where
  accepted : outcome.code = 0 ↔ ∃ report, Checked given session (.ok report)
  rejected : outcome.code = 2 ↔ ∃ rejection, Checked given session (.error (.rejected rejection))
  report : ∀ report, Checked given session (.ok report) →
    renderResult format
      (.value (.record (("valid", .boolean true) :: Session.reportFields report))) =
        .ok outcome.output
  reason : ∀ rejection, Checked given session (.error (.rejected rejection)) →
    renderResult format (rejectionResult rejection) = .ok outcome.output
  otherwise : outcome.code = 0 ∨ outcome.code = 2 ∨ outcome = ⟨1, []⟩

/-- The content that a command gives after the preparation. -/
def Gives (request : Request) (session : Session) (content : Content) : Prop :=
  ∃ ready after, Session.perform (prepare request.given) session = (.ok (), ready) ∧
    Session.perform (perform request) ready = (.ok content, after)

/-- How another command ends: with 0 and its content, or with 1 and no output. -/
structure CommandOutcome (format : Output.Format) (request : Request) (session : Session)
    (outcome : Outcome) : Prop where
  done : outcome.code = 0 ↔
    ∃ content text, Gives request session content ∧ renderResult format content = .ok text
  result : ∀ content, Gives request session content → outcome.code = 0 →
    renderResult format content = .ok outcome.output
  otherwise : outcome.code = 0 ∨ outcome = ⟨1, []⟩

section

variable {format : Output.Format} {given : Given} {session : Session} {text : Text}

theorem CheckOutcome.of_accepted {report : Program.Report}
    (hChecked : Checked given session (.ok report))
    (hText : renderResult format (.value (.record (acceptedFields report))) = .ok text) :
    CheckOutcome format given session ⟨0, text⟩ where
  accepted := ⟨fun _ => ⟨report, hChecked⟩, fun _ => rfl⟩
  rejected := ⟨nofun, fun ⟨_, hRejected⟩ => nomatch hChecked.unique hRejected⟩
  report := fun other hOther => by
    cases hChecked.unique hOther
    exact hText
  reason := fun _ hRejected => nomatch hChecked.unique hRejected
  otherwise := .inl rfl

theorem CheckOutcome.of_rejected {rejection : Program.Rejection}
    (hChecked : Checked given session (.error (.rejected rejection)))
    (hText : renderResult format (rejectionResult rejection) = .ok text) :
    CheckOutcome format given session ⟨2, text⟩ where
  accepted := ⟨nofun, fun ⟨_, hAccepted⟩ => nomatch hChecked.unique hAccepted⟩
  rejected := ⟨fun _ => ⟨rejection, hChecked⟩, fun _ => rfl⟩
  report := fun _ hAccepted => nomatch hChecked.unique hAccepted
  reason := fun other hOther => by
    cases hChecked.unique hOther
    exact hText
  otherwise := .inr (.inl rfl)

theorem CheckOutcome.of_failed (hAccepted : ∀ report, ¬ Checked given session (.ok report))
    (hRejected : ∀ rejection, ¬ Checked given session (.error (.rejected rejection))) :
    CheckOutcome format given session ⟨1, []⟩ where
  accepted := ⟨nofun, fun ⟨report, hChecked⟩ => absurd hChecked (hAccepted report)⟩
  rejected := ⟨nofun, fun ⟨rejection, hChecked⟩ => absurd hChecked (hRejected rejection)⟩
  report := fun report hChecked => absurd hChecked (hAccepted report)
  reason := fun rejection hChecked => absurd hChecked (hRejected rejection)
  otherwise := .inr (.inr rfl)

variable (format)

theorem checkOutcome_of_verdict {verdict : Except Program.Failure Program.Report}
    (hChecked : Checked given session verdict) :
    CheckOutcome format given session (outcomeOf format (verdict.mapError Fault.program >>=
      fun report => renderResult format (.value (.record (acceptedFields report))))) := by
  cases verdict with
  | ok report =>
      obtain ⟨text, hText⟩ := exists_renderResult_accepted hChecked format
      have hOutcome : outcomeOf format (renderResult format
          (.value (.record (acceptedFields report)))) = ⟨0, text⟩ := by
        rw [hText]
        rfl
      exact hOutcome ▸ .of_accepted hChecked hText
  | error failure =>
      cases failure with
      | rejected rejection =>
          obtain ⟨text, hText⟩ := exists_renderResult_rejection rejection format
          have hOutcome : outcomeOf format (.error (.program (.rejected rejection))) =
              ⟨2, text⟩ := by
            rw [outcomeOf, hText]
            rfl
          exact hOutcome ▸ .of_rejected hChecked hText
      -- The validator was stopped by something that is no rejection.
      | _ =>
          exact .of_failed (fun _ hAccepted => nomatch hChecked.unique hAccepted)
            fun _ hRejected => nomatch hChecked.unique hRejected

theorem checkOutcome_runRequest (given : Given) (session : Session) :
    CheckOutcome format given session (runRequest format ⟨.check, given⟩ session).1 := by
  rw [outcome_runRequest]
  rcases hPrepared : Session.perform (prepare given) session with ⟨fault | _, ready⟩
  · rw [response_of_fault format hPrepared,
      outcomeOf_noVerdict format (raises_prepare given session fault (by rw [hPrepared]))]
    exact .of_failed (fun _ => not_checked_of_fault hPrepared _)
      fun _ => not_checked_of_fault hPrepared _
  · rw [response_of_check format hPrepared]
    have hChecked := checked_iff hPrepared
    rcases checkReport_cases given ready with
      ⟨fault, hFault, hNoVerdict⟩ | ⟨program, arguments, table, _, _, _, hVerdict⟩
    · have hNone := not_checked_of_unloaded hPrepared hFault hNoVerdict
      have hOutcome := outcomeOf_noVerdict format hNoVerdict
      rw [hFault]
      exact hOutcome ▸ .of_failed (fun _ => hNone _) fun _ => hNone _
    · rw [hVerdict]
      exact checkOutcome_of_verdict format ((hChecked _).mpr hVerdict)

end

theorem Gives.unique {request : Request} {session : Session} {first second : Content}
    (hFirst : Gives request session first) (hSecond : Gives request session second) :
    first = second := by
  obtain ⟨ready, after, hReady, hDone⟩ := hFirst
  obtain ⟨_, _, hReady', hDone'⟩ := hSecond
  rw [hReady] at hReady'
  cases hReady'
  rw [hDone] at hDone'
  cases hDone'
  rfl

theorem response_eq_ok_iff (format : Output.Format) (request : Request) (session : Session)
    (text : Text) :
    (Session.perform (respond format request) session).1 = .ok text ↔
      ∃ content, Gives request session content ∧ renderResult format content = .ok text := by
  rcases hPrepared : Session.perform (prepare request.given) session with ⟨fault | _, ready⟩
  · rw [response_of_fault format hPrepared]
    refine ⟨nofun, ?_⟩
    rintro ⟨_, ⟨_, _, hReady, _⟩, _⟩
    rw [hPrepared] at hReady
    cases hReady
  · rw [response_of_ready format hPrepared]
    rcases hDone : Session.perform (perform request) ready with ⟨fault | content, after⟩
    · refine ⟨nofun, ?_⟩
      rintro ⟨_, ⟨_, _, hReady, hGiven⟩, _⟩
      rw [hPrepared] at hReady
      cases hReady
      rw [hDone] at hGiven
      cases hGiven
    · have hGives : Gives request session content := ⟨ready, after, hPrepared, hDone⟩
      constructor
      · exact fun hText => ⟨content, hGives, hText⟩
      · rintro ⟨other, hOther, hText⟩
        exact hGives.unique hOther ▸ hText

theorem commandOutcome_runRequest (format : Output.Format) {request : Request}
    (hOther : request.command ≠ .check) (session : Session) :
    CommandOutcome format request session (runRequest format request session).1 := by
  have hRaises : Session.Raises NoVerdict (respond format request) :=
    .bind (raises_prepare request.given) fun _ =>
      .bind (raises_perform hOther) fun content =>
        .ask fun _ => noVerdict_renderResult format content
  have hAnswer := response_eq_ok_iff format request session
  rw [outcome_runRequest]
  cases hResponse : (Session.perform (respond format request) session).1 with
  | ok text =>
      obtain ⟨content, hGives, hText⟩ := (hAnswer text).mp hResponse
      exact {
        done := ⟨fun _ => ⟨content, text, hGives, hText⟩, fun _ => rfl⟩
        result := fun other hOther _ => hGives.unique hOther ▸ hText
        otherwise := .inl rfl }
  | error fault =>
      rw [outcomeOf_noVerdict format (hRaises session fault hResponse)]
      refine ⟨⟨nofun, ?_⟩, fun _ _ hCode => (nomatch hCode), .inr rfl⟩
      rintro ⟨content, text, hGives, hText⟩
      rw [(hAnswer text).mpr ⟨content, hGives, hText⟩] at hResponse
      cases hResponse

/-- A command line with a command ends with 0, 1 or 2 unless it leaves the format blank, and then it
has no outcome. Which of the three it is, and what is written, is decided by what is loaded and by
the verdict of the validator. -/
theorem run_outcome_by_verdict (arguments : List Text) (request : Request)
    (hAccepted : readLine arguments = .ok request) (session : Session) :
    (request.given.format = none →
      Session.perform (run arguments) session =
        (.error (.unknownWord "[]" "OutputFormat"), session)) ∧
      ∀ format, request.given.format = some format →
        ∃ outcome after, Session.perform (run arguments) session = (.ok outcome, after) ∧
          (request.command = .check → CheckOutcome format request.given session outcome) ∧
          (request.command ≠ .check → CommandOutcome format request session outcome) := by
  refine ⟨perform_run_of_blank hAccepted session, ?_⟩
  intro format hFormat
  refine ⟨_, _, perform_run hAccepted session hFormat, ?_, ?_⟩
  · obtain ⟨command, given⟩ := request
    intro hCheck
    cases hCheck
    exact checkOutcome_runRequest format given session
  · exact fun hOther => commandOutcome_runRequest format hOther session

def blankFormat : List Text := ["--quiet", "--format=--", "check", "zz"]

theorem blank_format_ends_without_code :
    (readLine blankFormat).toOption.map (fun request => request.command) = some .check ∧
      (Session.perform (run blankFormat) (Session.startedWith [])).1.toOption = none := by
  decide +kernel

/-- The program that consists of version 1 and nothing else. -/
def versionAlone : List Text := ["check", "0x01"]

theorem version_alone_ends_with_report :
    ∃ request, readLine versionAlone = .ok request ∧ request.command = .check ∧
      request.given.format = some .json ∧
      ∃ report, Checked request.given (Session.startedWith []) (.ok report) := by
  have hParts : (readLine versionAlone).toOption.map (fun request =>
      (request.command, request.given.format)) = some (.check, some .json) := by
    decide +kernel
  obtain ⟨request, hAccepted, hGiven⟩ := exists_request hParts
  obtain ⟨hCheck, hFormat⟩ := Prod.mk.inj hGiven
  have hCode : (Session.perform (run versionAlone) (Session.startedWith [])).1.toOption.map
      Outcome.code = some 0 := by
    decide +kernel
  obtain ⟨outcome, after, hRun, hOutcome, _⟩ :=
    (run_outcome_by_verdict versionAlone request hAccepted (Session.startedWith [])).2 _ hFormat
  rw [hRun] at hCode
  exact ⟨request, hAccepted, hCheck, hFormat,
    (hOutcome hCheck).accepted.mp (Option.some.inj hCode)⟩

end CommandLine

end LogicSignature
