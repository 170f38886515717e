import LogicSignature.Text.Utf8

/-
Environment variables. Names and values are kept as bytes by the system: a text without an encoding
names no variable, and texts with the same bytes name the same one.
-/

namespace LogicSignature.Settings

/-- The environment variables and their values. -/
abbrev Environment := List (Text × Text)

namespace Environment

/-- Why a variable cannot be set. -/
inductive Fault where
  | unencodable (fault : Utf8.EncodeFault)
  | nullCharacter
  | markedName
  | emptyName
deriving DecidableEq, Repr

def Fault.message : Fault → Text
  | .unencodable fault => fault.message
  | .nullCharacter => "embedded null byte"
  | .markedName => "illegal environment variable name"
  | .emptyName => "[Errno 22] Invalid argument"

/-- The text that stands for the bytes of a text. -/
def canonical (text : Text) : Except Utf8.EncodeFault Text :=
  match Utf8.encodeName text with
  | .ok bytes => .ok (Utf8.decodeName bytes)
  | .error fault => .error fault

/-- The value of a variable, if it is set. -/
def find (environment : Environment) (name : Text) : Except Utf8.EncodeFault (Option Text) :=
  match canonical name with
  | .ok key => .ok (environment.lookup key)
  | .error fault => .error fault

def without (environment : Environment) (key : Text) : Environment :=
  environment.filter (fun entry => entry.1 != key)

/-- Sets a variable. -/
def put (environment : Environment) (name value : Text) : Except Fault Environment :=
  match canonical name with
  | .error fault => .error (.unencodable fault)
  | .ok key =>
    match canonical value with
    | .error fault => .error (.unencodable fault)
    | .ok text =>
      if key.contains (.char '\x00') || text.contains (.char '\x00') then .error .nullCharacter
      else if key.contains (.char '=') then .error .markedName
      else if key.isEmpty then .error .emptyName
      else .ok ((key, text) :: environment.without key)

/-- Removes a variable; it need not be set. -/
def remove (environment : Environment) (name : Text) : Except Fault Environment :=
  match canonical name with
  | .error fault => .error (.unencodable fault)
  | .ok key => .ok (environment.without key)

end Environment

end LogicSignature.Settings
