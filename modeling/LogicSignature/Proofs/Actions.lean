import LogicSignature.Session.Checking

/-
Actions of a session, one after the other: what an action does is opened by the equations below, and
what it leaves alone is said by the part of the session that it keeps.

Logging is the only thing that most actions do besides their work. An action that does nothing else
keeps all of the session but the journal and the diagnostics.
-/

namespace LogicSignature.Session

variable {Result Next : Type}

/-! ### Doing one thing after the other -/

/-- Goes on after an action has ended, unless it failed. -/
def proceed (next : Result → Action Next) :
    Except Fault Result × Session → Except Fault Next × Session
  | (.ok result, after) => perform (next result) after
  | (.error fault, after) => (.error fault, after)

/-- Goes on after an action has ended, if it failed. -/
def recover (handler : Fault → Action Result) :
    Except Fault Result × Session → Except Fault Result × Session
  | (.ok result, after) => (.ok result, after)
  | (.error fault, after) => perform (handler fault) after

@[simp]
theorem proceed_ok (next : Result → Action Next) (result : Result) (after : Session) :
    proceed next (.ok result, after) = perform (next result) after := rfl

@[simp]
theorem proceed_error (next : Result → Action Next) (fault : Fault) (after : Session) :
    proceed next (.error fault, after) = (.error fault, after) := rfl

@[simp]
theorem recover_ok (handler : Fault → Action Result) (result : Result) (after : Session) :
    recover handler (.ok result, after) = (.ok result, after) := rfl

@[simp]
theorem recover_error (handler : Fault → Action Result) (fault : Fault) (after : Session) :
    recover handler (.error fault, after) = perform (handler fault) after := rfl

@[simp]
theorem perform_pure (result : Result) (session : Session) :
    perform (pure result) session = (.ok result, session) := rfl

@[simp]
theorem perform_throw (fault : Fault) (session : Session) :
    perform (throw fault : Action Result) session = (.error fault, session) := rfl

@[simp]
theorem perform_get (session : Session) : perform get session = (.ok session, session) := rfl

@[simp]
theorem perform_set (new session : Session) : perform (set new) session = (.ok ⟨⟩, new) := rfl

@[simp]
theorem perform_ask (question : Session → Except Fault Result) (session : Session) :
    perform (ask question) session = (question session, session) := rfl

@[simp]
theorem perform_change (step : Session → Session) (session : Session) :
    perform (change step) session = (.ok (), step session) := rfl

@[simp]
theorem perform_bind (action : Action Result) (next : Result → Action Next) (session : Session) :
    perform (action >>= next) session = proceed next (perform action session) := by
  unfold perform ExceptT.run
  simp only [bind, ExceptT.bind, ExceptT.mk, StateT.bind]
  cases action session with
  | mk result after => cases result <;> rfl

@[simp]
theorem perform_tryCatch (action : Action Result) (handler : Fault → Action Result)
    (session : Session) :
    perform (tryCatch action handler) session = recover handler (perform action session) := by
  unfold perform ExceptT.run
  simp only [tryCatch, tryCatchThe, MonadExceptOf.tryCatch, ExceptT.tryCatch, ExceptT.mk, bind,
    StateT.bind]
  cases action session with
  | mk result after => cases result <;> rfl

/-! ### What an action keeps -/

/-- An action that keeps a part of the session, whether it fails or not. -/
def Keeps {View : Type} (view : Session → View) (action : Action Result) : Prop :=
  ∀ session, view (perform action session).2 = view session

section

variable {View : Type} {view : Session → View}

theorem Keeps.pure (result : Result) : Keeps view (Pure.pure result : Action Result) :=
  fun _ => rfl

theorem Keeps.throw (fault : Fault) : Keeps view (MonadExcept.throw fault : Action Result) :=
  fun _ => rfl

theorem Keeps.ask (question : Session → Except Fault Result) :
    Keeps view (Session.ask question) :=
  fun _ => rfl

theorem Keeps.change {step : Session → Session}
    (hStep : ∀ session, view (step session) = view session) : Keeps view (Session.change step) :=
  hStep

theorem Keeps.bind {action : Action Result} {next : Result → Action Next}
    (hAction : Keeps view action) (hNext : ∀ result, Keeps view (next result)) :
    Keeps view (action >>= next) := by
  intro session
  rw [perform_bind, ← hAction session]
  rcases perform action session with ⟨fault | result, after⟩
  · rfl
  · exact hNext result after

theorem Keeps.tryCatch {action : Action Result} {handler : Fault → Action Result}
    (hAction : Keeps view action) (hHandler : ∀ fault, Keeps view (handler fault)) :
    Keeps view (MonadExcept.tryCatch action handler) := by
  intro session
  rw [perform_tryCatch, ← hAction session]
  rcases perform action session with ⟨fault | result, after⟩
  · exact hHandler fault after
  · rfl

end

/-! ### What an action leads to -/

/-- An action that leads from every session to a related one, whether it fails or not. -/
def Leads (Related : Session → Session → Prop) (action : Action Result) : Prop :=
  ∀ session, Related session (perform action session).2

/-- A relation that holds after no action, and over two actions if it holds over each of them. -/
structure Carries (Related : Session → Session → Prop) : Prop where
  refl : ∀ session, Related session session
  trans : ∀ {before between after}, Related before between → Related between after →
    Related before after

section

variable {Related : Session → Session → Prop} (hCarries : Carries Related)

include hCarries

theorem Leads.pure (result : Result) : Leads Related (Pure.pure result : Action Result) :=
  hCarries.refl

theorem Leads.throw (fault : Fault) : Leads Related (MonadExcept.throw fault : Action Result) :=
  hCarries.refl

theorem Leads.ask (question : Session → Except Fault Result) :
    Leads Related (Session.ask question) :=
  hCarries.refl

theorem Leads.bind {action : Action Result} {next : Result → Action Next}
    (hAction : Leads Related action) (hNext : ∀ result, Leads Related (next result)) :
    Leads Related (action >>= next) := by
  intro session
  have hFirst := hAction session
  rw [perform_bind]
  rcases hDone : perform action session with ⟨fault | result, after⟩
  · rw [hDone] at hFirst
    exact hFirst
  · rw [hDone] at hFirst
    exact hCarries.trans hFirst (hNext result after)

theorem Leads.tryCatch {action : Action Result} {handler : Fault → Action Result}
    (hAction : Leads Related action) (hHandler : ∀ fault, Leads Related (handler fault)) :
    Leads Related (MonadExcept.tryCatch action handler) := by
  intro session
  have hFirst := hAction session
  rw [perform_tryCatch]
  rcases hDone : perform action session with ⟨fault | result, after⟩
  · rw [hDone] at hFirst
    exact hCarries.trans hFirst (hHandler fault after)
  · rw [hDone] at hFirst
    exact hFirst

end

/-- The session apart from what has been logged and how. -/
def withoutLogs (session : Session) : Session :=
  { session with journal := .empty, diagnostics := [] }

/-- An action that changes nothing but the logs. -/
abbrev OnlyLogs (action : Action Result) : Prop := Keeps withoutLogs action

/-- What does not depend on the logs is kept by an action that changes only them. -/
theorem OnlyLogs.keeps {View : Type} {view : Session → View} {action : Action Result}
    (hOnly : OnlyLogs action) (hView : ∀ session, view (withoutLogs session) = view session) :
    Keeps view action := by
  intro session
  rw [← hView, hOnly session, hView]

theorem onlyLogs_note (layer : Journal.Layer) (name : Text) (severity : Journal.Severity)
    (written : Journal.Note) : OnlyLogs (note layer name severity written) :=
  fun _ => rfl

theorem onlyLogs_newComponent (layer : Journal.Layer) (name : Text)
    (level : Option Journal.Severity) (format : Option Text) :
    OnlyLogs (newComponent layer name level format) := by
  intro session
  simp only [newComponent, perform_bind, perform_ask]
  cases session.sinkFor level format with
  | error fault => rfl
  | ok sink => rfl

theorem onlyLogs_component (layer : Journal.Layer) (name : Text) :
    OnlyLogs (component layer name) := by
  intro session
  rw [component, perform_bind, perform_get, proceed_ok]
  cases session.journal.components.lookup (Journal.componentKey layer name) with
  | some found => rfl
  | none =>
      refine Keeps.bind (onlyLogs_newComponent layer name _ _) (fun made => ?_) session
      exact Keeps.bind (Keeps.change (fun _ => rfl)) (fun _ => .pure made)

/-- The note about how an action ended changes neither its result nor more than the logs. -/
theorem perform_timed (layer : Journal.Layer) (name operation : Text) (action : Action Result)
    (session : Session) :
    (perform (timed layer name operation action) session).1 = (perform action session).1 ∧
      withoutLogs (perform (timed layer name operation action) session).2 =
        withoutLogs (perform action session).2 :=
  ⟨rfl, rfl⟩

end LogicSignature.Session
