import LogicSignature.Settings.Basic

/-
Why settings cannot be loaded, looked up or stored.
-/

namespace LogicSignature.Settings

inductive Fault where
  | missingFile (path : Text)
  | malformedFile (path : Text)
  | notMapping (path : Text)
  | unknownPath (path : Text)
  | invalidValue (shown : Text)
deriving DecidableEq, Repr

def Fault.message : Fault → Text
  | .missingFile path => "Configuration file not found: " ++ path
  | .malformedFile path => "Invalid YAML in " ++ path ++ ": <yaml error>"
  | .notMapping path => "Configuration root must be a mapping: " ++ path
  | .unknownPath path => "Invalid config path: " ++ path
  | .invalidValue shown => "Invalid value for config: " ++ shown

end LogicSignature.Settings
