import LogicSignature.Output.Format
import LogicSignature.Proofs.LogLines
import LogicSignature.Proofs.PathText
import LogicSignature.Proofs.ProgramSources
import LogicSignature.Value.Display

/-
The layout of grids.

A grid has a header, a rule and one line for each row, and all of them have the same length: every
column is as wide as the widest of its texts, texts are filled up with spaces to that width, and
three code points stand between two columns. So a column starts at the same place in every line, and
what a line shows there is the key or the beginning of the text of the value. There is no grid just
if a value that it would show has no text.
-/

namespace LogicSignature

/-! ### Joined parts -/

namespace Text

variable {separator : Text}

theorem length_join (part : Text) (rest : List Text) :
    (join separator (part :: rest)).length =
      ((part :: rest).map List.length).sum + separator.length * rest.length := by
  induction rest generalizing part with
  | nil => simp [join_singleton]
  | cons next others ih =>
      have hSum : ((part :: next :: others).map List.length).sum =
          part.length + ((next :: others).map List.length).sum := List.sum_cons
      rw [join_cons_cons, List.length_append, List.length_append, ih, hSum, List.length_cons,
        Nat.mul_succ]
      omega

/-- Each part stands behind the parts before it, each of these with a separator. -/
theorem take_drop_join {parts : List Text} {index : Nat} {part : Text}
    (hPart : parts[index]? = some part) :
    ((join separator parts).drop
      (((parts.take index).map fun earlier => earlier.length + separator.length).sum)).take
        part.length = part := by
  induction parts generalizing index with
  | nil => cases hPart
  | cons first rest ih =>
      cases index with
      | zero =>
          obtain rfl : first = part := Option.some.inj hPart
          rw [List.take_zero, List.map_nil, List.sum_nil, List.drop_zero]
          cases rest with
          | nil => rw [join_singleton, List.take_length]
          | cons next others => rw [join_cons_cons, List.take_left]
      | succ index =>
          cases rest with
          | nil => cases hPart
          | cons next others =>
              have hSkip : (first ++ separator).length = first.length + separator.length :=
                List.length_append
              rw [join_cons_cons, List.take_succ_cons, List.map_cons, List.sum_cons,
                ← List.append_assoc, ← hSkip, List.drop_length_add_append]
              exact ih hPart

theorem mem_join {parts : List Text} {point : CodePoint} (hPoint : point ∈ join separator parts) :
    point ∈ separator ∨ ∃ part ∈ parts, point ∈ part := by
  induction parts with
  | nil => cases hPoint
  | cons first rest ih =>
      cases rest with
      | nil =>
          rw [join_singleton] at hPoint
          exact .inr ⟨first, List.mem_cons_self, hPoint⟩
      | cons next others =>
          rw [join_cons_cons, List.mem_append, List.mem_append] at hPoint
          rcases hPoint with hFirst | hSeparator | hRest
          · exact .inr ⟨first, List.mem_cons_self, hFirst⟩
          · exact .inl hSeparator
          · exact (ih hRest).imp_right fun ⟨part, hPart, hMember⟩ =>
              ⟨part, List.mem_cons_of_mem _ hPart, hMember⟩

/-- Lines that are joined by line ends are split into the same lines. -/
theorem splitOn_join {mark : CodePoint} {parts : List Text} (hParts : parts ≠ [])
    (hAbsent : ∀ part ∈ parts, mark ∉ part) : splitOn mark (join [mark] parts) = parts := by
  induction parts with
  | nil => exact absurd rfl hParts
  | cons first rest ih =>
      obtain ⟨hFirst, hRest⟩ := List.forall_mem_cons.mp hAbsent
      cases rest with
      | nil => rw [join_singleton, splitOn_of_not_mem hFirst]
      | cons next others =>
          rw [join_cons_cons, List.singleton_append, splitOn_append hFirst,
            ih (List.cons_ne_nil _ _) hRest]

end Text

/-! ### Cells -/

theorem Atom.same_text_iff (left right : Text) :
    (Atom.text left).same (.text right) = true ↔ left = right := by
  rw [Atom.same, Atom.compare?, beq_iff_eq, Option.some.injEq, Text.order_eq_eq_iff]

namespace Output

/-- What a record shows in the column of a key: the beginning of the text of what it holds under the
key, and nothing if it lacks the key. -/
def cellText (fields : List (Text × Value)) (key : Text) : Text :=
  ((fields.lookup key).map fun held => held.display.take 40).getD []

/-- The greatest length of a text in the column of a key, the key included. -/
def columnWidth (rows : List (List (Text × Value))) (key : Text) : Nat :=
  (rows.map fun fields => (cellText fields key).length).foldl max key.length

theorem find?_same (fields : List (Text × Value)) (key : Text) :
    (fields.map fun field => (Atom.text field.1, Content.value field.2)).find?
        (fun entry => entry.1.same (.text key)) =
      (fields.lookup key).map fun held => (.text key, .value held) := by
  induction fields with
  | nil => rfl
  | cons field rest ih =>
      obtain ⟨name, held⟩ := field
      rw [List.map_cons, List.find?_cons, List.lookup_cons, ih]
      by_cases hName : name = key
      · subst hName
        simp only [(Atom.same_text_iff name name).mpr rfl, beq_self_eq_true, Option.map_some]
      · have hOther : (Atom.text name).same (.text key) = false :=
          Bool.eq_false_iff.mpr (mt (Atom.same_text_iff name key).mp hName)
        simp only [hOther, beq_false_of_ne (Ne.symm hName)]

/-- What a record holds under a key, if anything, has a text. -/
def CellWritable (fields : List (Text × Value)) (key : Text) : Prop :=
  ∀ held, fields.lookup key = some held → held.Writable

section

variable {fields : List (Text × Value)} {keys : List Text}

theorem cell_of_writable {key : Text} (hCell : CellWritable fields key) :
    cell (fields.map fun field => (.text field.1, .value field.2)) (.text key) =
      .ok (cellText fields key) := by
  rw [cell, find?_same, cellText]
  cases hHeld : fields.lookup key with
  | none => rfl
  | some held =>
      simp only [Option.map_some, Content.shown, Content.data,
        Value.shown_of_writable (hCell held hHeld)]
      rfl

theorem cell_of_not_writable {key : Text} (hCell : ¬ CellWritable fields key) :
    cell (fields.map fun field => (.text field.1, .value field.2)) (.text key) =
      .error (.numeral .tooLong) := by
  unfold CellWritable at hCell
  push Not at hCell
  obtain ⟨held, hHeld, hLong⟩ := hCell
  rw [cell, find?_same, hHeld]
  simp only [Option.map_some, Content.shown, Content.data, Value.shown_of_not_writable hLong]

theorem recordCells_of_writable (hCells : ∀ key ∈ keys, CellWritable fields key) :
    recordCells (fields.map fun field => (.text field.1, .value field.2)) (keys.map .text) =
      .ok (keys.map (cellText fields)) := by
  induction keys with
  | nil => rfl
  | cons key rest ih =>
      obtain ⟨hKey, hRest⟩ := List.forall_mem_cons.mp hCells
      rw [List.map_cons, recordCells, cell_of_writable hKey]
      simp only [ih hRest, List.map_cons]

theorem recordCells_of_not_writable (hCells : ¬ ∀ key ∈ keys, CellWritable fields key) :
    recordCells (fields.map fun field => (.text field.1, .value field.2)) (keys.map .text) =
      .error (.numeral .tooLong) := by
  induction keys with
  | nil => exact absurd (List.forall_mem_nil _) hCells
  | cons key rest ih =>
      rw [List.map_cons, recordCells]
      by_cases hKey : CellWritable fields key
      · have hRest := fun hRest => hCells (List.forall_mem_cons.mpr ⟨hKey, hRest⟩)
        simp only [cell_of_writable hKey, ih hRest]
      · simp only [cell_of_not_writable hKey]

end

/-- All that records hold under keys has a text. -/
def CellsWritable (keys : List Text) (rows : List (List (Text × Value))) : Prop :=
  ∀ fields ∈ rows, ∀ key ∈ keys, CellWritable fields key

section

variable {keys : List Text} {rows : List (List (Text × Value))}

theorem cells_of_writable (hRows : CellsWritable keys rows) :
    cells (keys.map .text) (rows.map fun fields => .value (.record fields)) =
      .ok (rows.map fun fields => keys.map (cellText fields)) := by
  induction rows with
  | nil => rfl
  | cons fields rest ih =>
      obtain ⟨hFields, hRest⟩ := List.forall_mem_cons.mp hRows
      have hRow : rowCells (keys.map .text) (.value (.record fields)) =
          .ok (keys.map (cellText fields)) := recordCells_of_writable hFields
      rw [List.map_cons, cells, hRow]
      simp only [ih hRest, List.map_cons]

theorem cells_of_not_writable (hRows : ¬ CellsWritable keys rows) :
    cells (keys.map .text) (rows.map fun fields => .value (.record fields)) =
      .error (.numeral .tooLong) := by
  induction rows with
  | nil => exact absurd (List.forall_mem_nil _) hRows
  | cons fields rest ih =>
      rw [List.map_cons, cells]
      by_cases hFields : ∀ key ∈ keys, CellWritable fields key
      · have hRow : rowCells (keys.map .text) (.value (.record fields)) =
            .ok (keys.map (cellText fields)) := recordCells_of_writable hFields
        have hRest := fun hRest => hRows (List.forall_mem_cons.mpr ⟨hFields, hRest⟩)
        simp only [hRow, ih hRest]
      · have hRow : rowCells (keys.map .text) (.value (.record fields)) =
            .error (.numeral .tooLong) := recordCells_of_not_writable hFields
        simp only [hRow]

end

theorem keyTexts_eq (keys : List Text) : keyTexts (keys.map .text) = .ok keys := by
  have hLengths : keys.find? (fun _ => false) = none :=
    List.find?_eq_none.mpr fun _ _ => Bool.false_ne_true
  have hBytes : keys.findIdx? (fun _ => false) = none :=
    List.findIdx?_eq_none_iff.mpr fun _ _ => rfl
  simp [keyTexts, Function.comp_def, Atom.display, hLengths, hBytes]

/-! ### Widths -/

theorem foldl_zipWith_max (rows : List (List (Text × Value))) (keys : List Text)
    (start : Text → Nat) :
    (rows.map fun fields => keys.map (cellText fields)).foldl
        (fun current row => List.zipWith (fun width text => max width text.length) current row)
        (keys.map start) =
      keys.map fun key =>
        (rows.map fun fields => (cellText fields key).length).foldl max (start key) := by
  induction rows generalizing start with
  | nil => rfl
  | cons fields rest ih =>
      have hStep : List.zipWith (fun width text => max width text.length) (keys.map start)
          (keys.map (cellText fields)) =
            keys.map fun key => max (start key) (cellText fields key).length := by
        rw [List.zipWith_map, List.zipWith_self]
      rw [List.map_cons, List.foldl_cons, hStep, ih]
      rfl

theorem widths_eq (rows : List (List (Text × Value))) (keys : List Text) :
    widths keys (rows.map fun fields => keys.map (cellText fields)) =
      keys.map (columnWidth rows) :=
  foldl_zipWith_max rows keys List.length

theorem le_foldl_max {numbers : List Nat} {start number : Nat}
    (hNumber : number ≤ start ∨ number ∈ numbers) : number ≤ numbers.foldl max start := by
  induction numbers generalizing start with
  | nil => exact hNumber.resolve_right List.not_mem_nil
  | cons first rest ih =>
      rw [List.foldl_cons]
      apply ih
      rcases hNumber with hStart | hMember
      · exact .inl (Nat.le_trans hStart (Nat.le_max_left _ _))
      · rcases List.mem_cons.mp hMember with rfl | hRest
        · exact .inl (Nat.le_max_right _ _)
        · exact .inr hRest

theorem length_key_le_columnWidth (rows : List (List (Text × Value))) (key : Text) :
    key.length ≤ columnWidth rows key :=
  le_foldl_max (.inl (Nat.le_refl _))

theorem length_cellText_le_columnWidth {rows : List (List (Text × Value))}
    {fields : List (Text × Value)} (hFields : fields ∈ rows) (key : Text) :
    (cellText fields key).length ≤ columnWidth rows key :=
  le_foldl_max (.inr (List.mem_map.mpr ⟨fields, hFields, rfl⟩))

/-! ### Lines -/

/-- Where a column starts: behind the columns before it, with three code points behind each. -/
def columnStart (widths : List Nat) (index : Nat) : Nat :=
  ((widths.take index).map fun width => width + 3).sum

/-- A line that shows a text in each column, filled up with spaces. -/
def Shows (widths : List Nat) (texts : List Text) (line : Text) : Prop :=
  ∀ index width text, widths[index]? = some width → texts[index]? = some text →
    (line.drop (columnStart widths index)).take width =
      text ++ Text.repeated (width - text.length) ' '

/-- Texts that fit into columns. -/
def Fits (widths : List Nat) (texts : List Text) : Prop :=
  List.Forall₂ (fun width text => text.length ≤ width) widths texts

section

variable {separator : Text} (hSeparator : separator.length = 3) {pieces : List Text}
  {widths : List Nat} (hPieces : pieces.map List.length = widths)

include hSeparator hPieces

theorem length_join_pieces (hWidths : widths ≠ []) :
    (Text.join separator pieces).length = widths.sum + 3 * (widths.length - 1) := by
  subst hPieces
  cases pieces with
  | nil => exact absurd rfl hWidths
  | cons piece rest =>
      rw [Text.length_join, hSeparator, List.length_map, List.length_cons, Nat.add_sub_cancel]

theorem take_drop_join_pieces {index width : Nat} {piece : Text}
    (hWidth : widths[index]? = some width) (hPiece : pieces[index]? = some piece) :
    ((Text.join separator pieces).drop (columnStart widths index)).take width = piece := by
  subst hPieces
  have hLength : piece.length = width := by
    rw [List.getElem?_map, hPiece] at hWidth
    exact Option.some.inj hWidth
  have hStart : columnStart (pieces.map List.length) index =
      ((pieces.take index).map fun earlier => earlier.length + separator.length).sum := by
    rw [columnStart, ← List.map_take, List.map_map, hSeparator]
    rfl
  rw [hStart, ← hLength]
  exact Text.take_drop_join hPiece

end

theorem length_padRight {width : Nat} {text : Text} (hText : text.length ≤ width) :
    (padRight width text).length = width := by
  rw [padRight, Text.repeated, List.length_append, List.length_replicate]
  omega

theorem map_length_padded {widths : List Nat} {texts : List Text} (hFits : Fits widths texts) :
    (List.zipWith padRight widths texts).map List.length = widths := by
  induction hFits with
  | nil => rfl
  | cons hText _ ih => rw [List.zipWith_cons_cons, List.map_cons, length_padRight hText, ih]

theorem map_length_dashes (widths : List Nat) :
    (widths.map fun width => Text.repeated width '-').map List.length = widths := by
  rw [List.map_map]
  exact (List.map_congr_left fun width _ => List.length_replicate).trans (List.map_id _)

section

variable {widths : List Nat} {texts : List Text}

theorem length_gridLine (hFits : Fits widths texts) (hWidths : widths ≠ []) :
    (gridLine widths texts).length = widths.sum + 3 * (widths.length - 1) :=
  length_join_pieces rfl (map_length_padded hFits) hWidths

theorem length_rule (hWidths : widths ≠ []) :
    (rule widths).length = widths.sum + 3 * (widths.length - 1) :=
  length_join_pieces rfl (map_length_dashes widths) hWidths

theorem shows_gridLine (hFits : Fits widths texts) :
    Shows widths texts (gridLine widths texts) := by
  intro index width text hWidth hText
  refine take_drop_join_pieces rfl (map_length_padded hFits) hWidth ?_
  rw [List.getElem?_zipWith, hWidth, hText]
  rfl

theorem break_not_mem_gridLine (hTexts : ∀ text ∈ texts, CodePoint.char '\n' ∉ text) :
    CodePoint.char '\n' ∉ gridLine widths texts := by
  intro hMember
  rcases Text.mem_join hMember with hSeparator | ⟨piece, hPiece, hBreak⟩
  · exact absurd hSeparator (by decide)
  · obtain ⟨index, hIndex⟩ := List.mem_iff_getElem?.mp hPiece
    obtain ⟨width, text, _, hText, rfl⟩ := List.getElem?_zipWith_eq_some.mp hIndex
    rcases List.mem_append.mp hBreak with hInside | hFill
    · exact hTexts text (List.mem_of_getElem? hText) hInside
    · exact absurd (List.eq_of_mem_replicate hFill) (by decide)

theorem break_not_mem_rule (widths : List Nat) : CodePoint.char '\n' ∉ rule widths := by
  intro hMember
  rcases Text.mem_join hMember with hSeparator | ⟨piece, hPiece, hBreak⟩
  · exact absurd hSeparator (by decide)
  · obtain ⟨width, _, rfl⟩ := List.mem_map.mp hPiece
    exact absurd (List.eq_of_mem_replicate hBreak) (by decide)

end

/-! ### The whole grid -/

/-- The rows that a document shows: its items, or those of the first list that it holds. -/
inductive Presents : Value → List Value → Prop
  | items (rows : List Value) : Presents (.list rows) rows
  | firstList {before after : List (Text × Value)} {rows : List Value} (name : Text)
      (hBefore : ∀ field ∈ before, ∀ items, field.2 ≠ .list items) :
      Presents (.record (before ++ (name, .list rows) :: after)) rows

/-- The lines of the grid of records with the keys of the first. -/
def gridLines (keys : List Text) (rows : List (List (Text × Value))) : List Text :=
  let columns := keys.map (columnWidth rows)
  gridLine columns keys :: rule columns ::
    rows.map fun fields => gridLine columns (keys.map (cellText fields))

theorem grid_of_writable {keys : List Text} {rows : List (List (Text × Value))}
    (hCells : CellsWritable keys rows) :
    grid (keys.map .text) (rows.map fun fields => .value (.record fields)) =
      .ok (Text.join "\n" (gridLines keys rows)) := by
  rw [grid, cells_of_writable hCells, keyTexts_eq]
  simp only [widths_eq, List.map_map]
  rfl

theorem rowsText_eq (first : List (Text × Value)) (others : List (List (Text × Value)))
    (whole : Content) :
    rowsText whole ((first :: others).map fun fields => .value (.record fields)) =
      (grid ((first.map Prod.fst).map .text)
        ((first :: others).map fun fields => .value (.record fields))).mapError .grid := by
  have hKeys : firstKeys? ((first :: others).map fun fields => .value (.record fields)) =
      some ((first.map Prod.fst).map .text) := by
    simp only [List.map_cons, firstKeys?, Content.entries?, Option.map_some, List.map_map,
      Function.comp_def]
  rw [rowsText, hKeys]
  cases hGrid : grid ((first.map Prod.fst).map .text)
      ((first :: others).map fun fields => .value (.record fields)) with
  | ok text =>
      simp only [hGrid]
      rfl
  | error fault =>
      simp only [hGrid]
      rfl

theorem rowsWithin_eq {before after : List (Text × Value)} {name : Text}
    {first : List (Text × Value)} {others : List Value}
    (hBefore : ∀ field ∈ before, ∀ items, field.2 ≠ .list items) :
    rowsWithin ((before ++ (name, .list (.record first :: others)) :: after).map fun field =>
        (.text field.1, .value field.2)) =
      some ((.record first :: others).map .value) := by
  have hNone : (before.map fun field => (Atom.text field.1, Content.value field.2)).filterMap
      (fun entry => entry.2.items?) = [] := by
    rw [List.filterMap_map, List.filterMap_eq_nil_iff]
    exact fun field hField => Content.items?_value_eq_none (hBefore field hField)
  rw [rowsWithin, List.map_append, List.filterMap_append, hNone, List.nil_append]
  rfl

theorem tableText_of_presents {content : Value} {first : List (Text × Value)}
    {others : List Value} (hContent : Presents content (.record first :: others)) :
    tableText (.value content) =
      rowsText (.value content) ((.record first :: others).map .value) := by
  cases hContent with
  | items => rfl
  | firstList name hBefore =>
      rw [tableText, Content.entries?]
      simp only [rowsWithin_eq hBefore]

section

variable {content : Value} {first : List (Text × Value)} {others : List (List (Text × Value))}
variable (hContent : Presents content ((first :: others).map .record))

include hContent

theorem render_of_presents :
    render .table (.value content) =
      (grid ((first.map Prod.fst).map .text)
        ((first :: others).map fun fields => .value (.record fields))).mapError .grid := by
  rw [render, tableText_of_presents hContent, ← rowsText_eq first others (.value content),
    List.map_cons, List.map_map]
  rfl

theorem render_of_writable (hCells : CellsWritable (first.map Prod.fst) (first :: others)) :
    render .table (.value content) =
      .ok (Text.join "\n" (gridLines (first.map Prod.fst) (first :: others))) := by
  rw [render_of_presents hContent, grid_of_writable hCells]
  rfl

theorem render_of_not_writable
    (hCells : ¬ CellsWritable (first.map Prod.fst) (first :: others)) :
    render .table (.value content) = .error (.grid (.numeral .tooLong)) := by
  rw [render_of_presents hContent, grid, cells_of_not_writable hCells]
  rfl

end

theorem fits_keys (rows : List (List (Text × Value))) (keys : List Text) :
    Fits (keys.map (columnWidth rows)) keys := by
  rw [Fits, List.forall₂_map_left_iff, List.forall₂_same]
  exact fun key _ => length_key_le_columnWidth rows key

theorem fits_cells {rows : List (List (Text × Value))} {fields : List (Text × Value)}
    (hFields : fields ∈ rows) (keys : List Text) :
    Fits (keys.map (columnWidth rows)) (keys.map (cellText fields)) := by
  rw [Fits, List.forall₂_map_left_iff, List.forall₂_map_right_iff, List.forall₂_same]
  exact fun key _ => length_cellText_le_columnWidth hFields key

/-- The lines of a grid: their number and length, and what they show in the columns. -/
structure Aligned (keys : List Text) (rows : List (List (Text × Value))) (lines : List Text) :
    Prop where
  count : lines.length = rows.length + 2
  length : ∀ line ∈ lines,
    line.length = (keys.map (columnWidth rows)).sum + 3 * (keys.length - 1)
  header : ∀ line, lines[0]? = some line → Shows (keys.map (columnWidth rows)) keys line
  body : ∀ place fields line, rows[place]? = some fields → lines[place + 2]? = some line →
    Shows (keys.map (columnWidth rows)) (keys.map (cellText fields)) line

theorem aligned_gridLines {keys : List Text} (hKeys : keys ≠ [])
    (rows : List (List (Text × Value))) : Aligned keys rows (gridLines keys rows) where
  count := by
    rw [gridLines, List.length_cons, List.length_cons, List.length_map]
  length := by
    have hWidths : keys.map (columnWidth rows) ≠ [] := mt List.map_eq_nil_iff.mp hKeys
    intro line hLine
    rw [← List.length_map (columnWidth rows)]
    simp only [gridLines, List.mem_cons, List.mem_map] at hLine
    rcases hLine with rfl | rfl | ⟨fields, hFields, rfl⟩
    · exact length_gridLine (fits_keys rows keys) hWidths
    · exact length_rule hWidths
    · exact length_gridLine (fits_cells hFields keys) hWidths
  header := by
    intro line hLine
    obtain rfl := Option.some.inj hLine
    exact shows_gridLine (fits_keys rows keys)
  body := by
    intro place fields line hFields hLine
    have hBody : (rows.map fun fields => gridLine (keys.map (columnWidth rows))
        (keys.map (cellText fields)))[place]? = some line := hLine
    rw [List.getElem?_map, hFields] at hBody
    obtain rfl := Option.some.inj hBody
    exact shows_gridLine (fits_cells (List.mem_of_getElem? hFields) keys)

theorem break_not_mem_gridLines {keys : List Text} {rows : List (List (Text × Value))}
    (hPlain : ∀ key ∈ keys, CodePoint.char '\n' ∉ key ∧
      ∀ fields ∈ rows, CodePoint.char '\n' ∉ cellText fields key) :
    ∀ line ∈ gridLines keys rows, CodePoint.char '\n' ∉ line := by
  intro line hLine
  simp only [gridLines, List.mem_cons, List.mem_map] at hLine
  rcases hLine with rfl | rfl | ⟨fields, hFields, rfl⟩
  · exact break_not_mem_gridLine fun key hKey => (hPlain key hKey).1
  · exact break_not_mem_rule _
  · apply break_not_mem_gridLine
    intro text hText
    obtain ⟨key, hKey, rfl⟩ := List.mem_map.mp hText
    exact (hPlain key hKey).2 fields hFields

/-- A document of records is shown as a grid of as many lines as there are records and two more, if
all that it shows has a text. All lines have the same length, and each column stands at the same
place in the header and in every row. It has no text if a value that it would show has none. -/
theorem grid_aligned (content : Value) (first : List (Text × Value))
    (others : List (List (Text × Value)))
    (hContent : Presents content ((first :: others).map .record)) (hFirst : first ≠ []) :
    (CellsWritable (first.map Prod.fst) (first :: others) →
      (∀ key ∈ first.map Prod.fst, CodePoint.char '\n' ∉ key ∧
        ∀ fields ∈ first :: others, CodePoint.char '\n' ∉ cellText fields key) →
      ∃ text, render .table (.value content) = .ok text ∧
        Aligned (first.map Prod.fst) (first :: others) (Text.splitOn (.char '\n') text)) ∧
    (¬ CellsWritable (first.map Prod.fst) (first :: others) →
      render .table (.value content) = .error (.grid (.numeral .tooLong))) := by
  have hKeys : first.map Prod.fst ≠ [] := mt List.map_eq_nil_iff.mp hFirst
  refine ⟨fun hCells hPlain => ⟨_, render_of_writable hContent hCells, ?_⟩,
    render_of_not_writable hContent⟩
  have hLines : Text.splitOn (.char '\n')
      (Text.join "\n" (gridLines (first.map Prod.fst) (first :: others))) =
        gridLines (first.map Prod.fst) (first :: others) :=
    Text.splitOn_join (List.cons_ne_nil _ _) (break_not_mem_gridLines hPlain)
  rw [hLines]
  exact aligned_gridLines hKeys (first :: others)

def longNamed : List (Text × Value) :=
  [("name", .text "a text that is longer than the cell of a column"), ("size", .integer 1)]

/-- A record with an integer that has no text, under a key that is not shown. -/
def nameless : List (Text × Value) :=
  [("size", .null), ("cost", .integer Numeral.writableBound)]

theorem uneven_rows_aligned :
    ∃ text, render .table (.value (.record
        [("count", .integer 2), ("ops", .list [.record longNamed, .record nameless])])) =
          .ok text ∧
      (Text.splitOn (.char '\n') text).length = 4 ∧
      ∀ line ∈ Text.splitOn (.char '\n') text, line.length = 47 := by
  have hBefore : ∀ field ∈ [(("count" : Text), Value.integer 2)],
      ∀ items, field.2 ≠ .list items := by
    intro field hField items hList
    rw [List.mem_singleton.mp hField] at hList
    cases hList
  have hCells : CellsWritable (longNamed.map Prod.fst) [longNamed, nameless] := by
    simp only [CellsWritable, longNamed, List.map_cons, List.map_nil, List.forall_mem_cons]
    refine ⟨⟨?_, ?_, List.forall_mem_nil _⟩, ⟨?_, ?_, List.forall_mem_nil _⟩,
      List.forall_mem_nil _⟩
    · rintro held ⟨rfl⟩
      exact .text _
    · rintro held ⟨rfl⟩
      exact .integer (by decide +kernel)
    · intro held hHeld
      cases hHeld
    · rintro held ⟨rfl⟩
      exact .null
  obtain ⟨text, hText, hAligned⟩ := (grid_aligned _ longNamed [nameless]
    (.firstList "ops" hBefore) (by decide)).1 hCells (by decide)
  refine ⟨text, hText, hAligned.count, ?_⟩
  intro line hLine
  rw [hAligned.length line hLine]
  rfl

/-- A record with the least integer that has too many digits. -/
def longNumbered : List (Text × Value) := [("a", .integer Numeral.writableBound)]

/-- No key and no cell would have a line break, but there is no grid. -/
theorem long_integer_has_no_grid :
    Presents (.list [.record longNumbered]) [.record longNumbered] ∧
      (∀ key ∈ longNumbered.map Prod.fst, CodePoint.char '\n' ∉ key ∧
        ∀ fields ∈ [longNumbered], CodePoint.char '\n' ∉ cellText fields key) ∧
      render .table (.value (.list [.record longNumbered])) =
        .error (.grid (.numeral .tooLong)) := by
  have hCells : ¬ CellsWritable (longNumbered.map Prod.fst) [longNumbered] := by
    intro hCells
    exact Value.not_writable_writableBound
      (hCells _ List.mem_cons_self _ List.mem_cons_self _ rfl)
  have hDigits : ∀ number : Int,
      cellText [("a", .integer number)] "a" = (Text.signedDecimal number).take 40 := fun _ => rfl
  refine ⟨.items _, ?_, render_of_not_writable (.items _) hCells⟩
  simp only [longNumbered, List.map_cons, List.map_nil, List.mem_singleton, forall_eq, hDigits]
  refine ⟨by decide, fun hBreak => ?_⟩
  -- The cell would show the first digits, and digits are printable.
  exact absurd (Text.isPrintable_signedDecimal _ _ (List.mem_of_mem_take hBreak)) (by decide)

end Output

end LogicSignature
