import LogicSignature.Proofs.CallHistory

/-
The default table over whole runs.

A table is built by an initialisation, or when the default table is first asked for. From then on it
is the default table, whatever happens to settings, variables and files, until it is replaced by the
next initialisation or forgotten. A building that fails changes nothing.
-/

namespace LogicSignature.Session

/-! ### Building a table -/

theorem onlyLogs_noteDropped (source : Text) (operations : List Operation) :
    OnlyLogs (noteDropped source operations) := by
  induction operations with
  | nil => exact .pure ()
  | cons operation rest ih => exact .bind (onlyLogs_note _ _ _ _) (fun _ => ih)

theorem onlyLogs_loadLangSpec (path : Option Storage.Path) : OnlyLogs (loadLangSpec path) :=
  .bind (.ask _) fun spec => .bind (onlyLogs_note _ _ _ _) fun _ => .pure spec

theorem onlyLogs_tableOf (spec : LangSpec) : OnlyLogs (tableOf spec) :=
  .bind (onlyLogs_noteDropped _ _) fun _ => .ask _

theorem onlyLogs_buildTable (path : Option Storage.Path) : OnlyLogs (buildTable path) := by
  intro session
  rw [buildTable, (perform_timed _ _ _ _ session).2]
  exact Keeps.bind (onlyLogs_loadLangSpec path) onlyLogs_tableOf session

theorem held_buildTable (path : Option Storage.Path) : Keeps Session.held (buildTable path) :=
  (onlyLogs_buildTable path).keeps (fun _ => rfl)

/-- The table of the specification at a path, as things stand in a session. -/
def tableNow (session : Session) (path : Option Storage.Path) : Except Fault Opcode.Table :=
  (perform (do
    let spec ← loadLangSpec path
    tableOf spec) session).1

theorem table_initTable (path : Option Storage.Path) (session : Session) :
    (perform (initTable path) session).1.map HeldTable.table = session.tableNow path := by
  have hBuilt : (perform (buildTable path) session).1 = session.tableNow path :=
    (perform_timed _ _ _ _ session).1
  rw [initTable, perform_bind, ← hBuilt]
  rcases perform (buildTable path) session with ⟨fault | table, after⟩ <;> rfl

theorem held_initTable (path : Option Storage.Path) (session : Session) :
    (perform (initTable path) session).2.held =
      (perform (initTable path) session).1.toOption.or session.held := by
  have hKept := held_buildTable path session
  rw [initTable, perform_bind]
  rcases hBuilt : perform (buildTable path) session with ⟨fault | table, after⟩
  · rw [hBuilt] at hKept
    exact hKept
  · rfl

theorem perform_defaultTable_of_some {session : Session} {held : HeldTable}
    (hHeld : session.held = some held) : perform defaultTable session = (.ok held, session) := by
  rw [defaultTable, perform_bind, perform_get, proceed_ok, hHeld]
  rfl

theorem perform_defaultTable_of_none {session : Session} (hHeld : session.held = none) :
    perform defaultTable session = perform (initTable none) session := by
  rw [defaultTable, perform_bind, perform_get, proceed_ok, hHeld]

theorem held_defaultTable (session : Session) :
    (perform defaultTable session).2.held =
      (perform defaultTable session).1.toOption.or session.held := by
  cases hHeld : session.held with
  | none => rw [perform_defaultTable_of_none hHeld, held_initTable, hHeld]
  | some held =>
      rw [perform_defaultTable_of_some hHeld]
      exact hHeld

/-! ### Validating with the default table -/

section

variable (limits : Program.Limits) (program : List UInt8) (arguments : List (List UInt8))

theorem onlyLogs_validate (table : Opcode.Table) :
    OnlyLogs (validate (some table) limits program arguments) := by
  refine .bind (.pure table) (fun chosen => ?_)
  dsimp only
  cases Program.validate chosen limits program arguments with
  | ok report => exact .bind (onlyLogs_note _ _ _ _) (fun _ => .pure report)
  | error failure =>
      cases failure with
      | rejected rejection => exact .bind (onlyLogs_note _ _ _ _) (fun _ => .throw _)
      | _ => exact .throw _

theorem perform_validate_none (session : Session) :
    perform (validate none limits program arguments) session =
      proceed (fun held => validate (some held.table) limits program arguments)
        (perform defaultTable session) := by
  simp only [validate, perform_bind]

/-- Apart from the logs, a validation leaves the session that the default table leaves. -/
theorem view_validate_none {View : Type} {view : Session → View}
    (hView : ∀ session, view (withoutLogs session) = view session) (session : Session) :
    view (perform (validate none limits program arguments) session).2 =
      view (perform defaultTable session).2 := by
  rw [perform_validate_none]
  rcases perform defaultTable session with ⟨fault | held, after⟩
  · rfl
  · exact (onlyLogs_validate limits program arguments held.table).keeps hView after

end

/-! ### Where the table comes from -/

namespace Call

def isForget : Call → Bool
  | .forgetTable => true
  | _ => false

def isInit : Call → Bool
  | .initTable _ => true
  | _ => false

/-- The table that a call asks for. -/
def request : Call → Option (Action HeldTable)
  | .initTable path => some (Session.initTable path)
  | .defaultTable => some Session.defaultTable
  | .validate _ _ _ => some Session.defaultTable
  | _ => none

/-- The path of the specification for a call that builds a table. -/
def specPath : Call → Option Storage.Path
  | .initTable path => path
  | _ => none

end Call

namespace Occurrence

/-- The table that a call got, if it asked for one and did not fail. -/
def answer (occurrence : Occurrence) : Option HeldTable :=
  occurrence.call.request.bind fun action => (perform action occurrence.before).1.toOption

/-- A successful initialisation. -/
def initiates (occurrence : Occurrence) : Bool :=
  occurrence.call.isInit && occurrence.answer.isSome

/-- A successful call for the default table. -/
def supplies (occurrence : Occurrence) : Bool :=
  !occurrence.call.isInit && occurrence.answer.isSome

/-- A call that got a table which was built when the call was made. -/
structure Built (occurrence : Occurrence) (held : HeldTable) : Prop where
  answer : occurrence.answer = some held
  table : occurrence.before.tableNow occurrence.call.specPath = .ok held.table

end Occurrence

/-- The call that the default table comes from: since the table was last forgotten, the last
successful initialisation, else the first successful call for the default table. -/
def origin (past : List Occurrence) : Option Occurrence :=
  ((afterLast Call.isForget past).reverse.find? Occurrence.initiates).or
    ((afterLast Call.isForget past).find? Occurrence.supplies)

theorem origin_snoc_of_forget (past : List Occurrence) {occurrence : Occurrence}
    (hForget : occurrence.call.isForget = true) : origin (past ++ [occurrence]) = none := by
  rw [origin, afterLast_snoc_of_mark past hForget]
  rfl

section

variable (past : List Occurrence) {occurrence : Occurrence}
variable (hForget : occurrence.call.isForget = false)

include hForget

theorem origin_snoc :
    origin (past ++ [occurrence]) =
      (Option.guard Occurrence.initiates occurrence).or
        ((origin past).or (Option.guard Occurrence.supplies occurrence)) := by
  rw [origin, afterLast_snoc past hForget, List.reverse_append, List.reverse_singleton,
    List.find?_append, List.find?_append, List.find?_singleton, List.find?_singleton, origin,
    Option.or_assoc, Option.or_assoc]
  rfl

theorem origin_snoc_of_none (hAnswer : occurrence.answer = none) :
    origin (past ++ [occurrence]) = origin past := by
  have hInitiates : occurrence.initiates = false := by
    rw [Occurrence.initiates, hAnswer, Option.isSome_none, Bool.and_false]
  have hSupplies : occurrence.supplies = false := by
    rw [Occurrence.supplies, hAnswer, Option.isSome_none, Bool.and_false]
  rw [origin_snoc past hForget, Option.guard, Option.guard, hInitiates, hSupplies]
  exact Option.or_none

theorem origin_snoc_of_init {held : HeldTable} (hAnswer : occurrence.answer = some held)
    (hInit : occurrence.call.isInit = true) : origin (past ++ [occurrence]) = some occurrence := by
  have hInitiates : occurrence.initiates = true := by
    rw [Occurrence.initiates, hAnswer, hInit]
    rfl
  rw [origin_snoc past hForget, Option.guard, hInitiates]
  rfl

theorem origin_snoc_of_default {held : HeldTable} (hAnswer : occurrence.answer = some held)
    (hInit : occurrence.call.isInit = false) :
    origin (past ++ [occurrence]) = (origin past).or (some occurrence) := by
  have hInitiates : occurrence.initiates = false := by
    rw [Occurrence.initiates, hInit, Bool.false_and]
  have hSupplies : occurrence.supplies = true := by
    rw [Occurrence.supplies, hAnswer, hInit]
    rfl
  rw [origin_snoc past hForget, Option.guard, Option.guard, hInitiates, hSupplies]
  rfl

end

/-! ### What a call does to the table -/

theorem held_store (path : Text) (content : Content) : Keeps Session.held (store path content) := by
  intro session
  rw [store, perform_bind, perform_get, proceed_ok]
  split
  · split <;> rfl
  · rfl

theorem held_loadDefaultFile (path : Storage.Path) :
    Keeps Session.held (loadDefaultFile path) := by
  refine .bind (.ask _) (fun found => ?_)
  cases found with
  | false => exact .pure ()
  | true =>
      refine .tryCatch (keeps_loadSettings Session.held (fun _ _ _ _ => rfl) path) (fun fault => ?_)
      cases fault with
      | settings own =>
          exact .bind ((onlyLogs_component .config "manager").keeps (fun _ => rfl))
            (fun made => (onlyLogs_note _ _ _ _).keeps (fun _ => rfl))
      | _ => exact .throw _

theorem held_loadDefaultFiles (paths : List Storage.Path) :
    Keeps Session.held (loadDefaultFiles paths) := by
  induction paths with
  | nil => exact .pure ()
  | cons path rest ih => exact .bind (held_loadDefaultFile path) (fun _ => ih)

/-- The table that a call got is held afterwards; without one, the table stays. -/
theorem held_after {call : Call} (hForget : call.isForget = false) (session : Session) :
    (call.after session).held = (Occurrence.answer ⟨session, call⟩).or session.held := by
  cases call with
  | initTable path => exact held_initTable path session
  | defaultTable => exact held_defaultTable session
  | validate limits program arguments =>
      have hSame : (perform (validate none limits program arguments) session).2.held =
          (perform defaultTable session).2.held :=
        view_validate_none limits program arguments (fun _ => rfl) session
      exact hSame.trans (held_defaultTable session)
  | forgetTable => cases hForget
  | resetSettings => rfl
  | store path content => exact held_store path content session
  | loadSettings path => exact keeps_loadSettings Session.held (fun _ _ _ _ => rfl) path session
  | loadDefaultSettings =>
      rw [Call.after, perform_loadDefaultSettings]
      exact held_loadDefaultFiles session.defaultFiles session
  | setVariable name value =>
      exact keeps_setVariable Session.held (fun _ _ => rfl) name value session
  | writeFile path entry => exact keeps_writeFile Session.held (fun _ _ => rfl) path entry session
  | removeFile path => exact keeps_removeFile Session.held (fun _ _ => rfl) path session

theorem built_of_answer {occurrence : Occurrence} {held : HeldTable}
    (hAnswer : occurrence.answer = some held)
    (hFresh : occurrence.call.isInit = true ∨ occurrence.before.held = none) :
    occurrence.Built held := by
  have hInit : ∃ path, occurrence.call.specPath = path ∧
      (perform (initTable path) occurrence.before).1.toOption = some held := by
    obtain ⟨before, call⟩ := occurrence
    cases call with
    | initTable path => exact ⟨path, rfl, hAnswer⟩
    | defaultTable =>
        refine ⟨none, rfl, ?_⟩
        rw [← perform_defaultTable_of_none (hFresh.resolve_left Bool.false_ne_true)]
        exact hAnswer
    | validate limits program arguments =>
        refine ⟨none, rfl, ?_⟩
        rw [← perform_defaultTable_of_none (hFresh.resolve_left Bool.false_ne_true)]
        exact hAnswer
    | _ => cases hAnswer
  obtain ⟨path, rfl, hResult⟩ := hInit
  refine ⟨hAnswer, ?_⟩
  rw [← table_initTable]
  rcases hPerformed : (perform (initTable occurrence.call.specPath) occurrence.before).1 with
    fault | found
  · rw [hPerformed] at hResult
    cases hResult
  · rw [hPerformed] at hResult
    cases hResult
    rfl

theorem answer_of_held {occurrence : Occurrence} {held found : HeldTable}
    (hAnswer : occurrence.answer = some found) (hInit : occurrence.call.isInit = false)
    (hHeld : occurrence.before.held = some held) : found = held := by
  have hDefault : (perform defaultTable occurrence.before).1.toOption = some found := by
    obtain ⟨before, call⟩ := occurrence
    cases call with
    | defaultTable => exact hAnswer
    | validate limits program arguments => exact hAnswer
    | initTable path => cases hInit
    | _ => cases hAnswer
  rw [perform_defaultTable_of_some hHeld] at hDefault
  cases hDefault
  rfl

/-! ### The table over a run -/

/-- One call keeps the table of the session in step with the call that it comes from. -/
theorem origin_step {past : List Occurrence} {now : Session} (call : Call)
    (hRel : Option.Rel Occurrence.Built (origin past) now.held) :
    Option.Rel Occurrence.Built (origin (past ++ [⟨now, call⟩])) (call.after now).held := by
  cases hForget : call.isForget with
  | true =>
      rw [origin_snoc_of_forget past hForget]
      cases call with
      | forgetTable => exact .none
      | _ => cases hForget
  | false =>
      rw [held_after hForget]
      cases hAnswer : Occurrence.answer ⟨now, call⟩ with
      | none =>
          rw [origin_snoc_of_none past hForget hAnswer, Option.none_or]
          exact hRel
      | some found =>
          cases hInit : call.isInit with
          | true =>
              rw [origin_snoc_of_init past hForget hAnswer hInit]
              exact .some (built_of_answer hAnswer (.inl hInit))
          | false =>
              rw [origin_snoc_of_default past hForget hAnswer hInit]
              -- A table that is there already is given out again, so that its origin stays.
              generalize hHeld : now.held = held at hRel ⊢
              generalize origin past = source at hRel ⊢
              cases hRel with
              | none => exact .some (built_of_answer hAnswer (.inr hHeld))
              | some hBuilt =>
                  rw [answer_of_held hAnswer hInit hHeld]
                  exact .some hBuilt

theorem origin_rel_held {session : Session} (hEmpty : session.held = none) (calls : List Call) :
    Option.Rel Occurrence.Built (origin (history calls session)) (runCalls calls session).held := by
  have hStart : Option.Rel Occurrence.Built (origin []) session.held := by
    rw [hEmpty]
    exact .none
  exact holds_after_calls (fun past now => Option.Rel Occurrence.Built (origin past) now.held)
    hStart (fun _ _ call hRel => origin_step call hRel) calls

/-- What the default table of a session with a past obeys. -/
structure TableLaws (past : List Occurrence) (now : Session) : Prop where
  /-- The table of the last initialisation or of the first call for it is given out again. -/
  kept : ∀ source, origin past = some source →
    ∃ held, source.Built held ∧ perform defaultTable now = (.ok held, now)
  /-- Without such a call the table is built from the settings as they are. -/
  fresh : origin past = none →
    (perform defaultTable now).1.map HeldTable.table = now.tableNow none
  initiated : ∀ path, (perform (initTable path) now).1.map HeldTable.table = now.tableNow path
  failedInit : ∀ path fault, (perform (initTable path) now).1 = .error fault →
    (perform (initTable path) now).2.held = now.held
  failedDefault : ∀ fault, (perform defaultTable now).1 = .error fault →
    (perform defaultTable now).2.held = now.held
  /-- A validator without a table is one with the table that is the default at that moment. -/
  validated : ∀ limits program arguments held after, perform defaultTable now = (.ok held, after) →
    perform (validate none limits program arguments) now =
      perform (validate (some held.table) limits program arguments) after
  notValidated : ∀ limits program arguments fault after,
    perform defaultTable now = (.error fault, after) →
    perform (validate none limits program arguments) now = (.error fault, after)

/-- Over every run, the default table is the one of the last successful initialisation since it was
last forgotten, else the one that was built when it was first asked for. -/
theorem default_table_over_runs (session : Session) (hEmpty : session.held = none)
    (calls : List Call) : TableLaws (history calls session) (runCalls calls session) := by
  have hRel := origin_rel_held hEmpty calls
  generalize history calls session = past at hRel ⊢
  generalize runCalls calls session = now at hRel ⊢
  refine ⟨?_, ?_, fun path => table_initTable path now, ?_, ?_, ?_, ?_⟩
  · intro source hSource
    rw [hSource] at hRel
    generalize hHeld : now.held = held at hRel
    cases hRel with
    | some hBuilt => exact ⟨_, hBuilt, perform_defaultTable_of_some hHeld⟩
  · intro hSource
    rw [hSource] at hRel
    generalize hHeld : now.held = held at hRel
    cases hRel with
    | none =>
        rw [perform_defaultTable_of_none hHeld]
        exact table_initTable none now
  · intro path fault hFault
    rw [held_initTable, hFault]
    rfl
  · intro fault hFault
    rw [held_defaultTable, hFault]
    rfl
  · intro limits program arguments held after hDefault
    rw [perform_validate_none, hDefault, proceed_ok]
  · intro limits program arguments fault after hDefault
    rw [perform_validate_none, hDefault, proceed_error]

/-- The default table is built, forgotten and built again; an initialisation between fails. In the
end the settings name a file that is not there. -/
def builtTwice : List Call :=
  [.defaultTable, .forgetTable, .initTable (some (Storage.Path.ofText "missing.json")),
    .defaultTable, .setVariable "LSIG_LANGSPEC_PATH" (some "missing.json")]

theorem second_table_outlives_settings :
    (startedWith []).held = none ∧
      (origin (history builtTwice (startedWith []))).map (·.before.nextTable) = some 1 ∧
      ((runCalls builtTwice (startedWith [])).tableNow none).isOk = false ∧
      ∃ held, perform defaultTable (runCalls builtTwice (startedWith [])) =
        (.ok held, runCalls builtTwice (startedWith [])) := by
  have hOrigin : (origin (history builtTwice (startedWith []))).map (·.before.nextTable) =
      some 1 := by decide +kernel
  have hNow : ((runCalls builtTwice (startedWith [])).tableNow none).isOk = false := by
    decide +kernel
  obtain ⟨source, hSource, _⟩ := Option.map_eq_some_iff.mp hOrigin
  obtain ⟨held, _, hDefault⟩ :=
    (default_table_over_runs (startedWith []) rfl builtTwice).kept source hSource
  exact ⟨rfl, hOrigin, hNow, held, hDefault⟩

end LogicSignature.Session
