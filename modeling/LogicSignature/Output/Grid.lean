import LogicSignature.Data.Content

/-
Grids: records below each other, with one column for each key of the first record. Every column is
as wide as its widest cell, and a cell shows at most forty code points.
-/

namespace LogicSignature.Output

/-- The most code points of a cell. -/
def maxCellLength : Nat := 40

/-- Why there is no grid: a row that is no record, a number with too many digits, or a key that is
no text. -/
inductive GridFault where
  | rowKind (kind : Text)
  | numeral (fault : Numeral.Fault)
  | keyKind (kind : Text)
  | bytesKey (column : Nat)
deriving DecidableEq, Repr

def GridFault.message : GridFault → Text
  | .rowKind kind => "'" ++ kind ++ "' object has no attribute 'get'"
  | .numeral fault => fault.message
  | .keyKind kind => "object of type '" ++ kind ++ "' has no len()"
  | .bytesKey column =>
    "sequence item " ++ Text.decimal column ++ ": expected str instance, bytes found"

def padRight (width : Nat) (text : Text) : Text := text ++ Text.repeated (width - text.length) ' '

/-- The cell of a record under a key; empty when the record lacks the key. -/
def cell (entries : List (Atom × Content)) (key : Atom) : Except GridFault Text :=
  match entries.find? (fun entry => entry.1.same key) with
  | none => .ok []
  | some (_, content) =>
    match content.shown with
    | .ok shown => .ok (shown.take maxCellLength)
    | .error fault => .error (.numeral fault)

/-- The cells of a record under several keys. -/
def recordCells (entries : List (Atom × Content)) : List Atom → Except GridFault (List Text)
  | [] => .ok []
  | key :: rest =>
    match cell entries key with
    | .error fault => .error fault
    | .ok first =>
      match recordCells entries rest with
      | .error fault => .error fault
      | .ok others => .ok (first :: others)

/-- The cells of one row. Only a record can be looked up, unless there is nothing to look up. -/
def rowCells (keys : List Atom) (row : Content) : Except GridFault (List Text) :=
  match row.entries? with
  | some entries => recordCells entries keys
  | none => if keys.isEmpty then .ok [] else .error (.rowKind row.kindName)

/-- The cells of each row. -/
def cells (keys : List Atom) : List Content → Except GridFault (List (List Text))
  | [] => .ok []
  | row :: rest =>
    match rowCells keys row with
    | .error fault => .error fault
    | .ok first =>
      match cells keys rest with
      | .error fault => .error fault
      | .ok others => .ok (first :: others)

/-- The keys as texts. A key that has no length is met before one of bytes. -/
def keyTexts (keys : List Atom) : Except GridFault (List Text) :=
  let lengthless := keys.find? fun key =>
    match key with
    | .text _ | .bytes _ => false
    | _ => true
  match lengthless with
  | some key => .error (.keyKind key.kindName)
  | none =>
    let ofBytes := keys.findIdx? fun key =>
      match key with
      | .bytes _ => true
      | _ => false
    match ofBytes with
    | some column => .error (.bytesKey column)
    | none => .ok (keys.map Atom.display)

/-- The width of each column. -/
def widths (keys : List Text) (rows : List (List Text)) : List Nat :=
  rows.foldl (fun current row => List.zipWith (fun width text => max width text.length) current row)
    (keys.map List.length)

def gridLine (widths : List Nat) (texts : List Text) : Text :=
  Text.join " | " (List.zipWith padRight widths texts)

/-- The line below the header. -/
def rule (widths : List Nat) : Text :=
  Text.join "-+-" (widths.map (fun width => Text.repeated width '-'))

/-- The grid of a list of records whose first record has the given keys. -/
def grid (keys : List Atom) (rows : List Content) : Except GridFault Text :=
  match cells keys rows with
  | .error fault => .error fault
  | .ok texts =>
    match keyTexts keys with
    | .error fault => .error fault
    | .ok header =>
      let columns := widths header texts
      .ok (Text.join "\n"
        (gridLine columns header :: rule columns :: texts.map (gridLine columns)))

end LogicSignature.Output
