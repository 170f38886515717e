import LogicSignature.Proofs.DefaultFiles

/-
Runs of a session.

A run is a list of calls that are made one after the other, whether they fail or not. Its history
keeps each call together with the session that it met. What a run leads to can then be said in terms
of what happened in it: of the last call of a kind, or of the calls since then.
-/

namespace LogicSignature.Session

/-- A call on the settings, the environment, the files or the default table. Validation is that of a
validator without a table of its own. -/
inductive Call where
  | store (path : Text) (content : Content)
  | loadSettings (path : Storage.Path)
  | loadDefaultSettings
  | resetSettings
  | setVariable (name : Text) (value : Option Text)
  | writeFile (path : Storage.Path) (entry : Storage.Entry)
  | removeFile (path : Storage.Path)
  | initTable (path : Option Storage.Path)
  | defaultTable
  | forgetTable
  | validate (limits : Program.Limits) (program : List UInt8) (arguments : List (List UInt8))

/-- The session after a call. -/
def Call.after (call : Call) (session : Session) : Session :=
  match call with
  | .store path content => (perform (Session.store path content) session).2
  | .loadSettings path => (perform (Session.loadSettings path) session).2
  | .loadDefaultSettings => (perform Session.loadDefaultSettings session).2
  | .resetSettings => (perform Session.resetSettings session).2
  | .setVariable name value => (perform (Session.setVariable name value) session).2
  | .writeFile path entry => (perform (Session.writeFile path entry) session).2
  | .removeFile path => (perform (Session.removeFile path) session).2
  | .initTable path => (perform (Session.initTable path) session).2
  | .defaultTable => (perform Session.defaultTable session).2
  | .forgetTable => (perform Session.forgetTable session).2
  | .validate limits program arguments =>
    (perform (Session.validate none limits program arguments) session).2

/-- A call and the session that it met. -/
structure Occurrence where
  before : Session
  call : Call

def runCalls (calls : List Call) (session : Session) : Session :=
  calls.foldl (fun current call => call.after current) session

def history : List Call → Session → List Occurrence
  | [], _ => []
  | call :: rest, session => ⟨session, call⟩ :: history rest (call.after session)

/-- What holds at the start and is kept by each call holds after every run. -/
theorem holds_after_calls (Holds : List Occurrence → Session → Prop) {session : Session}
    (hStart : Holds [] session)
    (hStep : ∀ past now call, Holds past now → Holds (past ++ [⟨now, call⟩]) (call.after now))
    (calls : List Call) : Holds (history calls session) (runCalls calls session) := by
  -- For a run with a past: the induction moves one call after the other into it.
  have hFrom : ∀ calls past now, Holds past now →
      Holds (past ++ history calls now) (runCalls calls now) := by
    intro calls
    induction calls with
    | nil =>
        intro past now hNow
        rwa [history, List.append_nil]
    | cons call rest ih =>
        intro past now hNow
        rw [history, List.append_cons]
        exact ih _ _ (hStep past now call hNow)
  exact hFrom calls [] session hStart

/-- The occurrences behind the last call of a kind; all of them if there is no such call. -/
def afterLast (isMark : Call → Bool) (past : List Occurrence) : List Occurrence :=
  (past.reverse.takeWhile fun occurrence => !isMark occurrence.call).reverse

section

variable {isMark : Call → Bool} (past : List Occurrence) {occurrence : Occurrence}

theorem afterLast_snoc_of_mark (hMark : isMark occurrence.call = true) :
    afterLast isMark (past ++ [occurrence]) = [] := by
  rw [afterLast, List.reverse_append, List.reverse_singleton, List.singleton_append,
    List.takeWhile_cons_of_neg (by simp [hMark]), List.reverse_nil]

theorem afterLast_snoc (hMark : isMark occurrence.call = false) :
    afterLast isMark (past ++ [occurrence]) = afterLast isMark past ++ [occurrence] := by
  rw [afterLast, List.reverse_append, List.reverse_singleton, List.singleton_append,
    List.takeWhile_cons_of_pos (by simp [hMark]), List.reverse_cons, afterLast]

end

/-! ### Calls on the environment and the files -/

section

variable {View : Type} (view : Session → View)

theorem keeps_setVariable
    (hView : ∀ session environment, view { session with environment } = view session)
    (name : Text) (value : Option Text) : Keeps view (setVariable name value) :=
  .bind (.ask _) fun environment => .change fun session => hView session environment

variable (hView : ∀ session storage, view { session with storage } = view session)

include hView

theorem keeps_writeFile (path : Storage.Path) (entry : Storage.Entry) :
    Keeps view (writeFile path entry) :=
  .bind (.ask _) fun storage => .change fun session => hView session storage

theorem keeps_removeFile (path : Storage.Path) : Keeps view (removeFile path) :=
  .bind (.ask _) fun storage => .change fun session => hView session storage

end

end LogicSignature.Session
