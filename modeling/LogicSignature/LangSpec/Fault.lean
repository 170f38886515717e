import LogicSignature.Json.Reader
import LogicSignature.LangSpec.Basic
import LogicSignature.Storage.Tree

/-
Why a language specification cannot be had: the file is missing, cannot be read, is no UTF-8 text or
no JSON document, or the document violates the schema.
-/

namespace LogicSignature.LangSpec

inductive Fault where
  | missing (path : Text)
  | unreadable (path : Text) (fault : Storage.Fault)
  | undecodable (path : Text) (fault : Utf8.Fault)
  | malformed (path : Text) (fault : Json.Fault)
  | invalid (source : Text) (violations : List Violation)

def Fault.message : Fault → Text
  | .missing path => "langspec not found: " ++ path
  | .unreadable path fault => "langspec could not be read: " ++ path ++ ": " ++ fault.message
  | .undecodable path fault => "langspec is not UTF-8: " ++ path ++ ": " ++ fault.message
  | .malformed path fault => "langspec is not valid JSON: " ++ path ++ ": " ++ fault.message
  | .invalid source violations =>
    "invalid langspec " ++ source ++ ": "
      ++ ((violations.head?.map Violation.text).getD "")

def Fault.violationTexts : Fault → List Text
  | .invalid _ violations => violations.map Violation.text
  | _ => []

def parse (document : Value) (source : Text) : Except Fault LangSpec :=
  match ofDocument document source with
  | .ok spec => .ok spec
  | .error found => .error (.invalid source found)

end LogicSignature.LangSpec
