import LogicSignature.Hex
import LogicSignature.Program.Validation
import LogicSignature.Session.Language

/-
Checking programs within a session: programs come as hexadecimal text or from files, the table is
given or the default one, and the outcome is noted.
-/

namespace LogicSignature.Session

/-- A report as a record. -/
def reportFields (report : Program.Report) : List (Text × Value) :=
  [("version", .integer report.version), ("length", .integer report.length),
    ("cost", .ofQuantity report.cost), ("instructions", .integer report.instructions)]

def rejectionNote (rejection : Program.Rejection) (length : Nat) : Journal.Note :=
  { message := "Program rejected"
    operation := .text "validate"
    errorCode := .text rejection.code
    context := [("reason", .text rejection.message), ("program_length", .integer length)] }

def acceptanceNote (report : Program.Report) : Journal.Note :=
  { message := "Program accepted"
    operation := .text "validate"
    context := reportFields report }

/-- Checks a program against a table, or against the default table. -/
def validate (table : Option Opcode.Table) (limits : Program.Limits) (program : List UInt8)
    (arguments : List (List UInt8)) : Action Program.Report := do
  let chosen ←
    match table with
    | some given => pure given
    | none => do
      let held ← defaultTable
      pure held.table
  match Program.validate chosen limits program arguments with
  | .ok report => do
    note .validator "checker" .debug (acceptanceNote report)
    return report
  | .error (.rejected rejection) => do
    note .validator "checker" .warning (rejectionNote rejection program.length)
    throw (.program (.rejected rejection))
  | .error failure => throw (.program failure)

/-- The bytes of a hexadecimal text. -/
def readHex (given what : Text) : Except Fault (List UInt8) :=
  match Hex.parse? given with
  | some bytes => .ok bytes
  | none => .error (.hex what given)

/-- The text of a file of hexadecimal text, without the blanks around it. -/
def hexText (bytes : List UInt8) : Except Fault Text :=
  match Utf8.decode bytes with
  | .ok characters => .ok ((Text.ofChars (Utf8.normaliseLines characters)).strip)
  | .error fault => .error (.encoding fault)

/-- The bytes of a program: marked hexadecimal text, the content of a file, or unmarked hexadecimal
text. A file with the suffix `.hex` holds hexadecimal text. -/
def readProgram (storage : Storage) (source : Text) : Except Fault (List UInt8) := do
  if Hex.isMarked source then readHex source "program"
  else
    let path := Storage.Path.ofText source
    match storage.fileExists path with
    | .error fault => throw (.storage fault)
    | .ok false => readHex source "program"
    | .ok true =>
      match storage.read path with
      | .error fault => throw (.storage fault)
      | .ok bytes =>
        if path.suffix == ".hex" then do
          let text ← hexText bytes
          readHex text "program"
        else return bytes

/-- The bytes of a program. -/
def loadProgram (source : Text) : Action (List UInt8) :=
  ask (fun session => readProgram session.storage source)

end LogicSignature.Session
