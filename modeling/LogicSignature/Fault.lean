import LogicSignature.Journal.Note
import LogicSignature.LangSpec.Fault
import LogicSignature.Output.Format
import LogicSignature.Program.Scan
import LogicSignature.Settings.Fault
import LogicSignature.Yaml.Fault

/-
All that can stop an operation of a session, with its message.
-/

namespace LogicSignature

inductive Fault where
  | program (failure : Program.Failure)
  | varint (fault : Varint.Fault)
  | descriptor (violation : Opcode.Violation)
  | table (fault : Opcode.TableFault)
  | slot
  | langSpec (fault : LangSpec.Fault)
  | document (fault : Json.Fault)
  | settings (fault : Settings.Fault)
  | check (fault : Settings.CheckFault)
  | settingKey (kind : Text)
  | numeral (fault : Numeral.Fault)
  | variable (fault : Settings.Environment.Fault)
  | misfit (cause : Yaml.Misfit)
  | storage (fault : Storage.Fault)
  | encoding (fault : Utf8.Fault)
  | pathKind (kind : Text)
  | hex (what given : Text)
  | clash (cause : Journal.Clash)
  | unknownWord (shown family : Text)
  | output (fault : Output.Fault)
  | unknownCommand (words : Text)
  | complaints (texts : List Text)
  | blankArgument
  | blankOffset
  | stated (text : Text)

/-- The message of a check that stopped without a report. -/
def Program.Failure.message : Program.Failure → Text
  | .rejected rejection => rejection.message
  | .realPosition => "byte indices must be integers or slices, not float"
  | .costOverflow => "int too large to convert to float"
  | .unwritable => Numeral.Fault.tooLong.message

def Opcode.TableFault.message : Opcode.TableFault → Text
  | .realOpcode => "list indices must be integers or slices, not float"
  | .refused violation => violation.message

/-- The message about a content that names no file. -/
def pathKindMessage (kind : Text) : Text :=
  if kind == "bytes" then
    "argument should be a str object or an os.PathLike object returning str, not <class 'bytes'>"
  else "expected str, bytes or os.PathLike object, not " ++ kind

def Fault.message : Fault → Text
  | .program failure => failure.message
  | .varint fault => fault.message
  | .descriptor violation => violation.message
  | .table fault => fault.message
  | .slot => "list index out of range"
  | .langSpec fault => fault.message
  | .document fault => fault.message
  | .settings fault => fault.message
  | .check fault => fault.message
  | .settingKey kind => "attribute name must be string, not '" ++ kind ++ "'"
  | .numeral fault => fault.message
  | .variable fault => fault.message
  | .misfit cause => cause.message
  | .storage fault => fault.message
  | .encoding fault => fault.message
  | .pathKind kind => pathKindMessage kind
  | .hex what given => what ++ " is not valid hex: " ++ given.quoted
  | .clash cause => cause.message
  | .unknownWord shown family => shown ++ " is not a valid " ++ family
  | .output fault => fault.message
  | .unknownCommand words => "Unknown command: " ++ words
  | .complaints texts => Text.join "; " texts
  | .blankArgument => "'list' object has no attribute 'lower'"
  | .blankOffset => "'<' not supported between instances of 'list' and 'int'"
  | .stated text => text

/-- The fault of a setting without a current content. -/
def Fault.ofReading : Settings.ReadFault → Fault
  | .numeral fault => .numeral fault
  | .variableName fault => .variable (.unencodable fault)

def Fault.ofStoring : Settings.SetFault → Fault
  | .invalid shown => .settings (.invalidValue shown)
  | .unshowable fault => .numeral fault
  | .unchecked fault => .check fault

/-- The fault of an entry of a file that could not be applied. -/
def Fault.ofApplying : Settings.ApplyFault → Fault
  | .keyKind kind => .settingKey kind
  | .set fault => .ofStoring fault

end LogicSignature
