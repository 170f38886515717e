import LogicSignature.Data.Display
import LogicSignature.Json.Writer

/-
Data as a document value. Kinds that a document does not have are shown as text, pairs become lists,
and keys become texts where that is possible. Data inside itself makes no document.
-/

namespace LogicSignature.Data

/-- Why data makes no document. -/
inductive DocumentFault where
  | circular
  | keyKind (kind : Text)
  | numeral (fault : Numeral.Fault)
deriving DecidableEq, Repr

def DocumentFault.message : DocumentFault → Text
  | .circular => "Circular reference detected"
  | .keyKind kind => "keys must be str, int, float, bool or None, not " ++ kind
  | .numeral fault => fault.message

def fieldName : Atom → Except DocumentFault Text
  | .text content => .ok content
  | .null => .ok "null"
  | .boolean flag => .ok (if flag then "true" else "false")
  | .integer number =>
    if Numeral.isWritable number then .ok (Text.signedDecimal number)
    else .error (.numeral .tooLong)
  | .real number => .ok (Json.realText number)
  | other => .error (.keyKind other.shortKindName)

def ofAtom : Atom → Except DocumentFault Value
  | .null => .ok .null
  | .boolean flag => .ok (.boolean flag)
  | .integer number =>
    if Numeral.isWritable number then .ok (.integer number) else .error (.numeral .tooLong)
  | .real number => .ok (.real number)
  | .text content => .ok (.text content)
  | other => .ok (.text other.display)

mutual

def document : Data → Except DocumentFault Value
  | .atom content => ofAtom content
  | .list items =>
    match documentItems items with
    | .error fault => .error fault
    | .ok values => .ok (.list values)
  | .pair first second =>
    match document first with
    | .error fault => .error fault
    | .ok left =>
      match document second with
      | .error fault => .error fault
      | .ok right => .ok (.list [left, right])
  | .set members =>
    match (Data.set members).shown with
    | .error fault => .error (.numeral fault)
    | .ok shown => .ok (.text shown)
  | .mapping entries =>
    match documentFields entries with
    | .error fault => .error fault
    | .ok fields => .ok (.record fields)
  | .enclosing _ => .error .circular

def documentItems : List Data → Except DocumentFault (List Value)
  | [] => .ok []
  | item :: rest =>
    match document item with
    | .error fault => .error fault
    | .ok value =>
      match documentItems rest with
      | .error fault => .error fault
      | .ok values => .ok (value :: values)

def documentFields : List (Atom × Data) → Except DocumentFault (List (Text × Value))
  | [] => .ok []
  | (key, data) :: rest =>
    match fieldName key with
    | .error fault => .error fault
    | .ok name =>
      match document data with
      | .error fault => .error fault
      | .ok value =>
        match documentFields rest with
        | .error fault => .error fault
        | .ok fields => .ok ((name, value) :: fields)

end

end LogicSignature.Data
