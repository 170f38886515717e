import LogicSignature.Data.Display
import LogicSignature.Data.Graph

/-
Contents: what a setting or a section of settings holds. A value that a document value can express
is one; what else a file holds keeps its place in the data graph of the file.
-/

namespace LogicSignature

/-- What a setting or a section of settings holds. -/
inductive Content where
  | value (value : Value)
  | datum (datum : Datum)
  | record (fields : List (Text × Content))
deriving Inhabited

namespace Content

/-- The content at a place of a graph. -/
def ofDatum (datum : Datum) : Content :=
  match datum.node with
  | .atom .null => .value .null
  | .atom (.boolean flag) => .value (.boolean flag)
  | .atom (.integer number) => .value (.integer number)
  | .atom (.real number) => .value (.real number)
  | .atom (.text content) => .value (.text content)
  | _ => .datum datum

def text (content : Text) : Content := .value (.text content)

def null : Content := .value .null

mutual

/-- The content as it is shown. -/
def data : Content → Data
  | .value held => .ofValue held
  | .datum held => held.data
  | .record fields => .mapping (dataFields fields)

def dataFields : List (Text × Content) → List (Atom × Data)
  | [] => []
  | (name, content) :: rest => (.text name, data content) :: dataFields rest

end

def kindName : Content → Text
  | .value held => held.kindName
  | .datum held =>
    match held.node with
    | .atom content => content.kindName
    | .list _ | .pairs _ => "list"
    | .set _ => "set"
    | .mapping _ => "dict"
  | .record _ => "dict"

/-- The same without the family that a kind belongs to. -/
def shortKindName (content : Content) : Text :=
  match content with
  | .datum held =>
    match held.node with
    | .atom atom => atom.shortKindName
    | _ => content.kindName
  | _ => content.kindName

/-- The number that a content is equal to, if any. -/
def quantity? : Content → Option Quantity
  | .value (.boolean flag) => some (.integer (if flag then 1 else 0))
  | .value held => held.quantity?
  | _ => none

def partCount? : Content → Option Nat
  | .value (.text content) => some content.length
  | .value (.list items) => some items.length
  | .value (.record fields) => some fields.length
  | .value _ => none
  | .datum held =>
    match held.node with
    | .atom (.text content) => some content.length
    | .atom (.bytes content) => some content.length
    | .atom _ => none
    | .list items => some items.length
    | .pairs items => some items.length
    | .set members => some members.length
    | .mapping entries => some entries.length
  | .record fields => some fields.length

/-- The items of a list. A list of pairs counts as one without items, since none is a record. -/
def items? : Content → Option (List Content)
  | .value (.list items) => some (items.map .value)
  | .datum held =>
    match held.node with
    | .list items => some (items.map fun place => ofDatum (held.goTo place))
    | .pairs _ => some []
    | _ => none
  | _ => none

theorem items?_value_eq_none {held : Value} (hHeld : ∀ items, held ≠ .list items) :
    (Content.value held).items? = none := by
  cases held with
  | list items => exact absurd rfl (hHeld items)
  | _ => rfl

/-- The entries of a record. -/
def entries? : Content → Option (List (Atom × Content))
  | .value (.record fields) => some (fields.map fun (name, held) => (.text name, .value held))
  | .record fields => some (fields.map fun (name, content) => (.text name, content))
  | .datum held =>
    match held.node with
    | .mapping entries =>
      some (entries.map fun (key, place) =>
        (held.graph.atomAt key, ofDatum (held.goTo place)))
    | _ => none
  | _ => none

/-- Whether a content counts as something: zero and the empty contents do not. -/
def isPresent : Content → Bool
  | .value held => held.isPresent
  | .datum held =>
    match held.node with
    | .atom content => content.isPresent
    | .list items => !items.isEmpty
    | .pairs items => !items.isEmpty
    | .set members => !members.isEmpty
    | .mapping entries => !entries.isEmpty
  | .record fields => !fields.isEmpty

/-- The display of a content on its own, unless an integer has too many digits. -/
def shown (content : Content) : Except Numeral.Fault Text := content.data.shown

end Content

end LogicSignature
