import LogicSignature.Data.Document
import LogicSignature.Output.Grid
import LogicSignature.Yaml.Writer

/-
Output formats: JSON over several lines, YAML, a grid, and the one-line display.
-/

namespace LogicSignature.Output

/-- The formats in which a result can be shown. -/
inductive Format where
  | json
  | yaml
  | table
  | text
deriving DecidableEq, Repr

def Format.name : Format → Text
  | .json => "json"
  | .yaml => "yaml"
  | .table => "table"
  | .text => "text"

def Format.all : List Format := [.json, .yaml, .table, .text]

def Format.ofName? (name : Text) : Option Format :=
  Format.all.find? (fun format => format.name == name)

/-- Why a content has no text in a format. -/
inductive Fault where
  | document (fault : Data.DocumentFault)
  | grid (fault : GridFault)
  | numeral (fault : Numeral.Fault)
deriving DecidableEq, Repr

def Fault.message : Fault → Text
  | .document fault => fault.message
  | .grid fault => fault.message
  | .numeral fault => fault.message

/-- The keys of the first of several rows, if that is a record. -/
def firstKeys? : List Content → Option (List Atom)
  | [] => none
  | first :: _ => first.entries?.map (fun entries => entries.map Prod.fst)

/-- The first list among the contents of a record, if it starts with a record: those are the rows to
show. -/
def rowsWithin (entries : List (Atom × Content)) : Option (List Content) :=
  match entries.filterMap (fun entry => entry.2.items?) with
  | [] => none
  | rows :: _ => (firstKeys? rows).map (fun _ => rows)

/-- The line of one entry of a record that holds no rows. -/
def entryLine (entry : Atom × Content) : Except Numeral.Fault Text :=
  match (Data.atom entry.1).shown with
  | .error fault => .error fault
  | .ok key =>
    match entry.2.shown with
    | .error fault => .error fault
    | .ok shown => .ok (key ++ ": " ++ shown)

/-- The lines of the entries of a record that holds no rows. -/
def entryLines : List (Atom × Content) → Except Numeral.Fault (List Text)
  | [] => .ok []
  | entry :: rest =>
    match entryLine entry with
    | .error fault => .error fault
    | .ok line =>
      match entryLines rest with
      | .error fault => .error fault
      | .ok lines => .ok (line :: lines)

def line (content : Content) : Except Fault Text :=
  match content.shown with
  | .ok shown => .ok shown
  | .error fault => .error (.numeral fault)

/-- The rows as a grid if the first of them is a record, else the display of what holds them. -/
def rowsText (whole : Content) (rows : List Content) : Except Fault Text :=
  match firstKeys? rows with
  | none => line whole
  | some keys =>
    match grid keys rows with
    | .ok text => .ok text
    | .error fault => .error (.grid fault)

/-- A content as a grid, or as close to one as it comes. -/
def tableText (content : Content) : Except Fault Text :=
  match content.entries? with
  | some entries =>
    match rowsWithin entries with
    | some rows => rowsText content rows
    | none =>
      match entryLines entries with
      | .ok lines => .ok (Text.join "\n" lines)
      | .error fault => .error (.numeral fault)
  | none =>
    match content.items? with
    | some rows => rowsText content rows
    | none => line content

def render (format : Format) (content : Content) : Except Fault Text :=
  match format with
  | .json =>
    match content.data.document with
    | .ok value => .ok (Json.indented value)
    | .error fault => .error (.document fault)
  | .yaml =>
    match Yaml.renderContent content with
    | .ok text => .ok text
    | .error fault => .error (.numeral fault)
  | .table => tableText content
  | .text => line content

end LogicSignature.Output
