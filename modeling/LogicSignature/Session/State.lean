import LogicSignature.Fault
import LogicSignature.Journal.Registry
import LogicSignature.Opcode.Table

/-
A session: the settings, the environment, the files, the journal and the held opcode table, as one
value. Actions change it and may fail; what an action changed before it failed stays changed.
-/

namespace LogicSignature

namespace Session

/-- The clock of a session: the wall clock in microseconds, and the milliseconds that pass during an
operation. -/
structure Clock where
  moment : Int
  operationTime : Binary64

/-- The clock that shows a number of microseconds. -/
def Clock.ofReading (microseconds : Int) (operationTime : Binary64) : Clock :=
  ⟨Calendar.clockMoment microseconds, operationTime⟩

/-- A table that is kept for later. The serial number tells tables apart. -/
structure HeldTable where
  serial : Nat
  table : Opcode.Table

end Session

/-- The state that lasts from action to action. -/
structure Session where
  settings : Settings
  loadedFiles : List Storage.Path
  nextFile : Nat
  environment : Settings.Environment
  storage : Storage
  homeText : Text
  journal : Journal
  held : Option Session.HeldTable
  nextTable : Nat
  clock : Session.Clock
  /-- What has been written for the operator, line by line. -/
  diagnostics : List Text

namespace Session

/-- Something that is done in a session. -/
abbrev Action := ExceptT Fault (StateM Session)

/-- An action that leaves the session alone. -/
def ask {Result : Type} (question : Session → Except Fault Result) : Action Result :=
  ExceptT.mk (fun session => (question session, session))

/-- An action that changes the session and cannot fail. -/
def change (step : Session → Session) : Action Unit :=
  ExceptT.mk (fun session => (.ok (), step session))

/-- Does something in a session. -/
def perform {Result : Type} (action : Action Result) (session : Session) :
    Except Fault Result × Session :=
  action.run session

/-- Writes lines for the operator. -/
def say (lines : List Text) (session : Session) : Session :=
  { session with diagnostics := session.diagnostics ++ lines }

end Session

end LogicSignature
