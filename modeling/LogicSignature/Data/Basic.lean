import LogicSignature.Calendar
import LogicSignature.Value.Basic

/-
Data: all that a settings file can hold. It has more kinds than a document value: bytes, dates,
moments, pairs, sets, and mappings whose keys are not only texts. A collection may lie inside
itself; data is then the picture of it that starts at the outermost one, with a mark where it
repeats.
-/

namespace LogicSignature

/-- A datum without parts. Such a datum can be a key. -/
inductive Atom where
  | null
  | boolean (flag : Bool)
  | integer (number : Int)
  | real (number : Binary64)
  | text (content : Text)
  | bytes (content : List UInt8)
  | date (date : Calendar.Date)
  | moment (moment : Calendar.Moment)
deriving DecidableEq, Repr, Inhabited

namespace Atom

def kindName : Atom → Text
  | .null => "NoneType"
  | .boolean _ => "bool"
  | .integer _ => "int"
  | .real _ => "float"
  | .text _ => "str"
  | .bytes _ => "bytes"
  | .date _ => "datetime.date"
  | .moment _ => "datetime.datetime"

/-- The same without the family that a kind belongs to. -/
def shortKindName : Atom → Text
  | .date _ => "date"
  | .moment _ => "datetime"
  | other => other.kindName

/-- The number that an atom is equal to, if any. -/
def quantity? : Atom → Option Quantity
  | .boolean flag => some (.integer (if flag then 1 else 0))
  | .integer number => some (.integer number)
  | .real number => some (.real number)
  | _ => none

/-- Whether an atom counts as something: zero and the empty atoms do not. -/
def isPresent : Atom → Bool
  | .null => false
  | .boolean flag => flag
  | .integer number => number != 0
  | .real number => !Quantity.same (.real number) (.integer 0)
  | .text content => !content.isEmpty
  | .bytes content => !content.isEmpty
  | _ => true

/-- The order of byte strings. -/
def bytesOrder : List UInt8 → List UInt8 → Ordering
  | [], [] => .eq
  | [], _ :: _ => .lt
  | _ :: _, [] => .gt
  | first :: rest, other :: others =>
    match compare first.toNat other.toNat with
    | .eq => bytesOrder rest others
    | different => different

/-- The kinds among which atoms can be put in order. -/
inductive Rank where
  | null
  | number
  | text
  | bytes
  | date
  | moment
  | zonedMoment
deriving DecidableEq, Repr

def rank : Atom → Rank
  | .null => .null
  | .boolean _ | .integer _ | .real _ => .number
  | .text _ => .text
  | .bytes _ => .bytes
  | .date _ => .date
  | .moment instant => if instant.offset.isSome then .zonedMoment else .moment

/-- How two atoms of one rank compare; `none` for an undefined number. -/
def compare? (left right : Atom) : Option Ordering :=
  match left, right with
  | .null, .null => some .eq
  | .text first, .text second => some (Text.order first second)
  | .bytes first, .bytes second => some (bytesOrder first second)
  | .date first, .date second => some (Calendar.Date.compare first second)
  | .moment first, .moment second => first.compare? second
  | _, _ =>
    match left.quantity?, right.quantity? with
    | some first, some second => first.compare? second
    | _, _ => none

/-- Whether two atoms are equal as keys. An undefined number equals nothing. -/
def same (left right : Atom) : Bool := compare? left right == some .eq

/-- Strictly less, among atoms of one rank. -/
def less (left right : Atom) : Bool := compare? left right == some .lt

end Atom

/-- A datum as it is shown. `enclosing` stands for a list or mapping inside itself. -/
inductive Data where
  | atom (content : Atom)
  | list (items : List Data)
  | pair (first second : Data)
  | set (members : List Atom)
  | mapping (entries : List (Atom × Data))
  | enclosing (ofMapping : Bool)
deriving Repr, Inhabited

namespace Data

/-- The name that messages use for the kind of a datum. -/
def kindName : Data → Text
  | .atom content => content.kindName
  | .list _ => "list"
  | .pair _ _ => "tuple"
  | .set _ => "set"
  | .mapping _ => "dict"
  | .enclosing ofMapping => if ofMapping then "dict" else "list"

mutual

def ofValue : Value → Data
  | .null => .atom .null
  | .boolean flag => .atom (.boolean flag)
  | .integer number => .atom (.integer number)
  | .real number => .atom (.real number)
  | .text content => .atom (.text content)
  | .list items => .list (ofItems items)
  | .record fields => .mapping (ofFields fields)

def ofItems : List Value → List Data
  | [] => []
  | item :: rest => ofValue item :: ofItems rest

def ofFields : List (Text × Value) → List (Atom × Data)
  | [] => []
  | (name, value) :: rest => (.text name, ofValue value) :: ofFields rest

end

end Data

end LogicSignature
