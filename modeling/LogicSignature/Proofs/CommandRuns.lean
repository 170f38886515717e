import LogicSignature.CommandLine.Run
import LogicSignature.Proofs.LoggerHistory

/-
Command lines in a session.

A command line that names a command loads settings, configures logging, and then does the command,
which touches nothing but the default table and the notes. So it leaves the journal as sound as it
was, and the sessions that a process can come to all have a sound journal with the components of the
start in it.
-/

namespace LogicSignature

namespace CommandLine

open Session (Action ask Leads OnlyNotes carries_onlyNotes Advances carries_advances)

/-! ### The parts of a run -/

/-- The loading of settings in front of a command. -/
def loading (given : Given) : Action Unit :=
  match given.config.bind Argument.path? with
  | some path => Session.loadSettings path
  | none => Session.loadDefaultSettings

/-- The level that logging is configured with in front of a command. -/
def askedLevel (given : Given) : Option Journal.Severity :=
  if given.quiet then some .error else none

theorem prepare_eq (given : Given) :
    prepare given = (do
      loading given
      Session.configureLogging (askedLevel given) none) := by
  unfold prepare loading
  cases given.config.bind Argument.path? with
  | some path => rfl
  | none => rfl

theorem exists_request {arguments : List Text} {View : Type} {view : Request → View} {seen : View}
    (hSeen : (readLine arguments).toOption.map view = some seen) :
    ∃ request, readLine arguments = .ok request ∧ view request = seen := by
  cases hRead : readLine arguments with
  | error halt =>
      rw [hRead] at hSeen
      cases hSeen
  | ok request =>
      rw [hRead] at hSeen
      exact ⟨request, rfl, Option.some.inj hSeen⟩

section

variable {arguments : List Text} {request : Request} (hAccepted : readLine arguments = .ok request)
variable (session : Session)

include hAccepted

theorem perform_run_of_blank (hBlank : request.given.format = none) :
    Session.perform (run arguments) session =
      (.error (.unknownWord "[]" "OutputFormat"), session) := by
  unfold Session.perform run
  simp only [ExceptT.run_mk, hAccepted, hBlank]

theorem perform_run {format : Output.Format} (hFormat : request.given.format = some format) :
    Session.perform (run arguments) session =
      (.ok (runRequest format request session).1, (runRequest format request session).2) := by
  unfold Session.perform run
  simp only [ExceptT.run_mk, hAccepted, hFormat]

end

/-! ### What a command does to the logs -/

theorem onlyNotes_givenTable (given : Given) : Leads OnlyNotes (givenTable given) := by
  unfold givenTable
  cases given.langSpec.bind Argument.path? with
  | none => exact .pure carries_onlyNotes none
  | some path =>
      exact .bind carries_onlyNotes (Session.onlyNotes_loadLangSpec (some path)) fun spec =>
        .bind carries_onlyNotes (Session.onlyNotes_tableOf spec) fun table =>
          .pure carries_onlyNotes (some table)

theorem onlyNotes_runCheck (given : Given) : Leads OnlyNotes (runCheck given) :=
  .bind carries_onlyNotes (.ask carries_onlyNotes _) fun program =>
    .bind carries_onlyNotes (.ask carries_onlyNotes _) fun arguments =>
      .bind carries_onlyNotes (onlyNotes_givenTable given) fun table =>
        .bind carries_onlyNotes (Session.onlyNotes_validate table {} program arguments) fun _ =>
          .pure carries_onlyNotes _

theorem onlyNotes_runLangSpecShow (given : Given) : Leads OnlyNotes (runLangSpecShow given) :=
  .bind carries_onlyNotes (.ask carries_onlyNotes _) fun path =>
    .bind carries_onlyNotes (Session.onlyNotes_loadLangSpec path) fun spec =>
      .bind carries_onlyNotes (Session.onlyNotes_tableOf spec) fun _ =>
        .pure carries_onlyNotes _

theorem onlyNotes_runConfigValidate : Leads OnlyNotes runConfigValidate := by
  refine .bind carries_onlyNotes (.ask carries_onlyNotes _) fun complaints => ?_
  cases complaints.isEmpty with
  | true => exact .pure carries_onlyNotes _
  | false => exact .throw carries_onlyNotes _

theorem onlyNotes_perform (request : Request) : Leads OnlyNotes (perform request) := by
  have hValue : ∀ {action : Action Value}, Leads OnlyNotes action →
      Leads OnlyNotes (do return Content.value (← action)) := fun hAction =>
    .bind carries_onlyNotes hAction fun value => .pure carries_onlyNotes _
  obtain ⟨command, given⟩ := request
  cases command with
  | root => exact .throw carries_onlyNotes _
  | check => exact hValue (onlyNotes_runCheck given)
  | langSpec => exact .throw carries_onlyNotes _
  | langSpecShow => exact hValue (onlyNotes_runLangSpecShow given)
  | varint => exact .throw carries_onlyNotes _
  | varintDecode => exact hValue (.ask carries_onlyNotes _)
  | varintEncode => exact hValue (.ask carries_onlyNotes _)
  | config => exact .throw carries_onlyNotes _
  | configGet =>
      exact .bind carries_onlyNotes (.ask carries_onlyNotes _) fun content =>
        .pure carries_onlyNotes _
  | configShow => exact .ask carries_onlyNotes _
  | configValidate => exact hValue onlyNotes_runConfigValidate

/-! ### What a run does to the journal -/

theorem onlyNotes_advances {before after : Session} (hNotes : OnlyNotes before after) :
    Advances before after :=
  .of_journal_eq hNotes.journal

theorem advances_loading (given : Given) : Leads Advances (loading given) := by
  unfold loading
  cases given.config.bind Argument.path? with
  | some path => exact (Session.journal_loadSettings path).advances
  | none => exact Session.advances_loadDefaultSettings

theorem advances_respond (format : Output.Format) (request : Request) :
    Leads Advances (respond format request) := by
  unfold respond
  rw [prepare_eq]
  refine .bind carries_advances (.bind carries_advances (advances_loading request.given) fun _ =>
    Session.advances_configureLogging _ _) fun _ => ?_
  have hCommand : Leads Advances (perform request) :=
    fun session => onlyNotes_advances (onlyNotes_perform request session)
  exact .bind carries_advances hCommand fun content => .ask carries_advances _

/-- A request leaves the session that the command leaves, apart from what is said at the end, and
nothing is said when it is quiet. -/
theorem session_runRequest (format : Output.Format) (request : Request) (session : Session) :
    ∃ lines, (request.given.quiet = true → lines = []) ∧ (runRequest format request session).2 =
      (Session.perform (respond format request) session).2.say lines := by
  unfold runRequest
  rcases Session.perform (respond format request) session with ⟨fault | text, after⟩
  · have hSilent : ∃ lines : List Text, (request.given.quiet = true → lines = []) ∧
        after = after.say lines := ⟨[], fun _ => rfl, by rw [Session.say, List.append_nil]⟩
    have hSpoken : ∃ lines, (request.given.quiet = true → lines = []) ∧
        (if request.given.quiet then (⟨failedCode, []⟩, after)
          else ((⟨failedCode, []⟩ : Outcome), after.say ["Error: " ++ fault.message ++ "\n"])).2 =
        after.say lines := by
      cases hQuiet : request.given.quiet with
      | true => rwa [hQuiet] at hSilent
      | false => exact ⟨_, nofun, rfl⟩
    cases fault with
    | program failure =>
        cases failure with
        | rejected rejection => dsimp only; split <;> exact hSilent
        | _ => exact hSpoken
    | _ => exact hSpoken
  · exact ⟨[], fun _ => rfl, by rw [Session.say, List.append_nil]⟩

theorem journal_runRequest (format : Output.Format) (request : Request) (session : Session) :
    (runRequest format request session).2.journal =
      (Session.perform (respond format request) session).2.journal := by
  obtain ⟨lines, _, hAfter⟩ := session_runRequest format request session
  rw [hAfter]
  rfl

theorem journal_runHalt (halt : Halt) (session : Session) :
    (runHalt halt session).2.journal = session.journal := by
  unfold runHalt
  split <;> rfl

theorem advances_run (arguments : List Text) : Leads Advances (run arguments) := by
  intro session
  cases hRead : readLine arguments with
  | error halt =>
      refine .of_journal_eq ?_
      unfold Session.perform run
      simp only [ExceptT.run_mk, hRead]
      exact journal_runHalt halt session
  | ok request =>
      cases hFormat : request.given.format with
      | none =>
          rw [perform_run_of_blank hRead session hFormat]
          exact carries_advances.refl session
      | some format =>
          rw [perform_run hRead session hFormat]
          exact carries_advances.trans (advances_respond format request session)
            (.of_journal_eq (journal_runRequest format request session))

end CommandLine

/-! ### Sessions of a process -/

namespace Session

/-- The sessions that a process can come to: what is done in it are calls on settings, variables,
files, tables and loggers, notes, checks with a table, and command lines. -/
inductive Reachable : Session → Prop
  | start (storage : Storage) (homeText : Text) (environment : Settings.Environment)
      (clock : Clock) : Reachable (start storage homeText environment clock)
  | call (call : LogCall) {session : Session} :
      Reachable session → Reachable (call.after session)
  | replaceSetting (path : Text) (new : Settings.Setting) {session : Session} :
      Reachable session → Reachable (perform (replaceSetting path new) session).2
  | note (layer : Journal.Layer) (name : Text) (severity : Journal.Severity)
      (written : Journal.Note) {session : Session} :
      Reachable session → Reachable (perform (note layer name severity written) session).2
  | validate (table : Opcode.Table) (limits : Program.Limits) (program : List UInt8)
      (arguments : List (List UInt8)) {session : Session} :
      Reachable session →
        Reachable (perform (validate (some table) limits program arguments) session).2
  | commandLine (arguments : List Text) {session : Session} :
      Reachable session → Reachable (perform (CommandLine.run arguments) session).2

/-- The journal is sound, and the components of the start are kept in it. -/
structure Established (session : Session) : Prop where
  sound : session.journal.Sound
  starting : ∀ component ∈ startingComponents,
    (session.journal.kept component.1 component.2).isSome

theorem Established.advance {before after : Session} (hBefore : Established before)
    (hAdvances : Advances before after) : Established after where
  sound := hAdvances.sound hBefore.sound
  starting := fun component hMember =>
    hAdvances.kept hBefore.sound _ _ (hBefore.starting component hMember)

theorem established_start (storage : Storage) (homeText : Text)
    (environment : Settings.Environment) (clock : Clock) :
    Established (start storage homeText environment clock) := by
  obtain ⟨_, _, _, hHolds⟩ := exists_starting_sink storage homeText environment clock
  exact ⟨hHolds.sound, fun component hMember =>
    (hHolds.kept component.1 component.2).mpr hMember⟩

theorem journal_replaceSetting (path : Text) (new : Settings.Setting) :
    Keeps Session.journal (replaceSetting path new) := by
  intro session
  rw [replaceSetting, perform_bind, perform_get, proceed_ok]
  split <;> rfl

theorem advances_logCall (call : LogCall) (session : Session) :
    Advances session (call.after session) := by
  cases call with
  | component layer name => exact advances_component layer name session
  | newComponent layer name level format =>
      exact advances_newComponent layer name level format session
  | configureLogging level format => exact advances_configureLogging level format session
  | other call =>
      by_cases hCall : call = .loadDefaultSettings
      · subst hCall
        exact advances_loadDefaultSettings session
      · exact .of_journal_eq (journal_after hCall session)

theorem Reachable.established {session : Session} (hReachable : Reachable session) :
    Established session := by
  induction hReachable with
  | start storage homeText environment clock =>
      exact established_start storage homeText environment clock
  | call call _ ih => exact ih.advance (advances_logCall call _)
  | replaceSetting path new _ ih =>
      exact ih.advance ((journal_replaceSetting path new).advances _)
  | note layer name severity written _ ih => exact ih.advance (.of_journal_eq rfl)
  | validate table limits program arguments _ ih =>
      exact ih.advance
        (.of_journal_eq (onlyNotes_validate (some table) limits program arguments _).journal)
  | commandLine arguments _ ih => exact ih.advance (CommandLine.advances_run arguments _)

end Session

end LogicSignature
