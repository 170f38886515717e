import LogicSignature.Data.Content
import LogicSignature.Settings.Environment
import LogicSignature.Text.LowerCase

/-
One setting: a default, an environment variable that overrides everything, a content set at run
time, and a check that a content must pass before it is stored.
-/

namespace LogicSignature.Settings

/-- What a content must satisfy to be stored. -/
inductive Check where
  | isText
  | oneOf (words : List Text)
  | positive
  | nonEmpty
  | never
deriving DecidableEq, Repr

/-- A content of a kind to which a check does not apply. -/
inductive CheckFault where
  | incomparable (kind : Text)
  | unmeasurable (kind : Text)
deriving DecidableEq, Repr

def CheckFault.message : CheckFault → Text
  | .incomparable kind =>
    "'>' not supported between instances of '" ++ kind ++ "' and 'int'"
  | .unmeasurable kind => "object of type '" ++ kind ++ "' has no len()"

def Check.passes (check : Check) (content : Content) : Except CheckFault Bool :=
  match check with
  | .isText =>
    match content with
    | .value (.text _) => .ok true
    | _ => .ok false
  | .oneOf words =>
    match content with
    | .value (.text word) => .ok (words.contains word)
    | _ => .ok false
  | .positive =>
    match content.quantity? with
    | some number => .ok (Quantity.less (.integer 0) number)
    | none => .error (.incomparable content.kindName)
  | .nonEmpty =>
    match content.partCount? with
    | some count => .ok (0 < count)
    | none => .error (.unmeasurable content.kindName)
  | .never => .ok false

structure Setting where
  default : Content
  variableName : Option Text
  description : Text
  check : Option Check
  stored : Option Content

/-- A setting that nothing has been stored in. -/
def Setting.fresh (default : Content) (variableName : Option Text) (check : Option Check) :
    Setting :=
  ⟨default, variableName, [], check, none⟩

/-- The words that mean yes, in lower case. -/
def yesWords : List Text := ["true", "1", "yes", "on"]

/-- The content that the text of a variable gives: of the kind of the default. -/
def coerce (default : Content) (text : Text) : Except Numeral.Fault Content :=
  match default with
  | .value (.boolean _) => .ok (.value (.boolean (yesWords.contains text.lower)))
  | .value (.integer _) =>
    match Numeral.parse text with
    | .ok number => .ok (.value (.integer number))
    | .error fault => .error fault
  | _ => .ok (.text text)

/-- Why a setting has no current content. -/
inductive ReadFault where
  | numeral (fault : Numeral.Fault)
  | variableName (fault : Utf8.EncodeFault)
deriving DecidableEq, Repr

def ReadFault.message : ReadFault → Text
  | .numeral fault => fault.message
  | .variableName fault => fault.message

/-- The text of the variable of a setting, if the variable is present. -/
def Setting.override? (setting : Setting) (environment : Environment) :
    Except Utf8.EncodeFault (Option Text) :=
  match setting.variableName with
  | some name => if name.isEmpty then .ok none else environment.find name
  | none => .ok none

/-- The current content: of the variable, else the stored one, else the default. -/
def Setting.get (setting : Setting) (environment : Environment) : Except ReadFault Content :=
  match setting.override? environment with
  | .error fault => .error (.variableName fault)
  | .ok none => .ok (setting.stored.getD setting.default)
  | .ok (some text) =>
    match coerce setting.default text with
    | .ok content => .ok content
    | .error fault => .error (.numeral fault)

/-- Why a content is not stored. A content that cannot even be shown has a fault of its own. -/
inductive SetFault where
  | invalid (shown : Text)
  | unshowable (fault : Numeral.Fault)
  | unchecked (fault : CheckFault)
deriving DecidableEq, Repr

/-- Storing null means storing nothing. -/
def storable : Content → Option Content
  | .value .null => none
  | content => some content

/-- Stores a content that passes the check. -/
def Setting.set (setting : Setting) (content : Content) : Except SetFault Setting :=
  let stored := { setting with stored := storable content }
  match setting.check with
  | none => .ok stored
  | some check =>
    match check.passes content with
    | .error fault => .error (.unchecked fault)
    | .ok true => .ok stored
    | .ok false =>
      match content.shown with
      | .ok shown => .error (.invalid shown)
      | .error fault => .error (.unshowable fault)

end LogicSignature.Settings
