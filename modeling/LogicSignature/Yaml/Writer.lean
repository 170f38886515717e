import LogicSignature.Yaml.Outline

/-
Writing YAML in block style and ASCII. Sequences are not indented below their keys, and text is
folded at single spaces behind column 80. Text is plain where that is unambiguous, else
single-quoted, and double-quoted where it needs escapes. A datum that is referred to has an anchor.
-/

namespace LogicSignature.Yaml.Writer

def foldColumn : Nat := 80

/-- The indentation of one level. -/
def indentStep : Nat := 2

/-- The length below which a key, with its anchor and the name of its type, stands on one line with
its value. -/
def keyLengthLimit : Nat := 128

/-- A text in the making: the pieces so far in reverse, the column, whether the last piece was white
space, and whether the line so far holds only indentation and marks. -/
structure Sheet where
  pieces : List Text
  column : Nat
  whitespace : Bool
  indention : Bool
  openEnded : Bool

namespace Sheet

def blank : Sheet := ⟨[], 0, true, true, false⟩

def text (sheet : Sheet) : Text := sheet.pieces.reverse.flatten

/-- Writes a text without a line end. -/
def put (sheet : Sheet) (text : Text) : Sheet :=
  { sheet with
    pieces := text :: sheet.pieces
    column := sheet.column + text.length }

def breakLine (sheet : Sheet) (lineEnd : CodePoint) : Sheet :=
  { sheet with
    pieces := [lineEnd] :: sheet.pieces
    column := 0
    whitespace := true
    indention := true }

/-- Goes to the indentation of a level, on a new line where the current one is in use. -/
def indentTo (sheet : Sheet) (indent : Nat) : Sheet :=
  let fresh :=
    if !sheet.indention || indent < sheet.column
        || (sheet.column == indent && !sheet.whitespace) then sheet.breakLine '\n'
    else sheet
  if fresh.column < indent then
    { fresh.put (Text.repeated (indent - fresh.column) ' ') with whitespace := true }
  else fresh

/-- Writes a mark, with a space in front where one is needed. -/
def mark (sheet : Sheet) (text : Text) (spaced whitespace indention : Bool) : Sheet :=
  let shown : Text := if sheet.whitespace || !spaced then text else ' ' :: text
  { sheet.put shown with
    whitespace
    indention := sheet.indention && indention
    openEnded := false }

/-- Forgets that only white space was written. -/
def inText (sheet : Sheet) : Sheet := { sheet with whitespace := false, indention := false }

end Sheet

/-! ### The form of a text -/

/-- What a text allows: whether it has line ends, and whether it can be plain or single-quoted. -/
structure Form where
  empty : Bool
  multiline : Bool
  plain : Bool
  single : Bool

def endsLine (point : CodePoint) : Bool :=
  point == '\n' || point == '\x85' || point == '\u2028' || point == '\u2029'

/-- White space as it separates the words of a text, the null character included. -/
def separates (point : CodePoint) : Bool :=
  point == '\x00' || point == ' ' || point == '\t' || point == '\r' || endsLine point

/-- Whether a code point needs an escape wherever it stands. -/
def isSpecial (point : CodePoint) : Bool :=
  !(point == '\n' || (32 ≤ point.code && point.code ≤ 126))

def leadingMarks : Text := "#,[]\x7b\x7d&*!|>%@`\x27\x22"

/-- Whether a first code point is a mark of block text. -/
def marksStart (point : CodePoint) (followed : Bool) : Bool :=
  leadingMarks.contains point || ((point == '?' || point == ':' || point == '-') && followed)

/-- Whether a later code point is a mark of block text. -/
def marksInside (point : CodePoint) (preceded followed : Bool) : Bool :=
  (point == ':' && followed) || (point == '#' && preceded)

/-- Whether a later code point of the text is a mark, given the one before it. -/
def hasMarkInside : CodePoint → Text → Bool
  | _, [] => false
  | before, point :: rest =>
    let followed := (rest.head?.map separates).getD true
    marksInside point (separates before) followed || hasMarkInside point rest

def hasMark (text : Text) : Bool :=
  (Text.ofString "---").isPrefixOf text || (Text.ofString "...").isPrefixOf text
    || (match text with
      | [] => false
      | point :: rest =>
        marksStart point ((rest.head?.map separates).getD true) || hasMarkInside point rest)

/-- Whether a code point of one class is directly followed by one of another class. -/
def hasPair (first second : CodePoint → Bool) : Text → Bool
  | left :: right :: rest => (first left && second right) || hasPair first second (right :: rest)
  | _ => false

def isSpace (point : CodePoint) : Bool := point == ' '

def form (text : Text) : Form :=
  let multiline := text.any endsLine
  let atEnds (condition : CodePoint → Bool) : Bool :=
    (text.head?.map condition).getD false || (text.getLast?.map condition).getD false
  let fragile := hasPair isSpace endsLine text || text.any isSpecial
  let breakSpace := hasPair endsLine isSpace text
  { empty := text.isEmpty
    multiline
    plain :=
      !(atEnds isSpace || atEnds endsLine || breakSpace || fragile || multiline || hasMark text)
    single := !(breakSpace || fragile) }

/-! ### Scalars -/

/-- Splits a text into runs of spaces, of line ends and of other code points. -/
def runs (text : Text) : List Text :=
  let sort (point : CodePoint) : Nat := if isSpace point then 0 else if endsLine point then 1 else 2
  text.splitBy (fun left right => sort left == sort right)

/-- Writes line ends; a line feed in front is doubled, because one alone would be folded. -/
def putBreaks (sheet : Sheet) (indent : Nat) (breaks : Text) : Sheet :=
  let doubled := if breaks.head? == some (.char '\n') then sheet.breakLine '\n' else sheet
  (breaks.foldl Sheet.breakLine doubled).indentTo indent

def putPlain (sheet : Sheet) (indent : Nat) (split : Bool) (text : Text) : Sheet :=
  match text with
  | [] => sheet
  | _ =>
    let started := (if sheet.whitespace then sheet else sheet.put " ").inText
    (runs text).foldl
      (fun (current : Sheet) (run : Text) =>
        if run == " " && foldColumn < current.column && split then
          (current.indentTo indent).inText
        else if run.any endsLine then (putBreaks current indent run).inText
        else current.put run)
      started

/-- Writes the runs of a single-quoted text. A space at the very start or end is never folded. -/
def putSingleRuns (indent : Nat) (split : Bool) : Bool → List Text → Sheet → Sheet
  | _, [], sheet => sheet
  | isFirst, run :: rest, sheet =>
    let next :=
      if run == " " && foldColumn < sheet.column && split && !isFirst && !rest.isEmpty then
        sheet.indentTo indent
      else if run.any endsLine then putBreaks sheet indent run
      else
        sheet.put (run.flatMap (fun point =>
          if point == .char '\x27' then ("\x27\x27" : Text) else [point]))
    putSingleRuns indent split false rest next

def putSingle (sheet : Sheet) (indent : Nat) (split : Bool) (text : Text) : Sheet :=
  (putSingleRuns indent split true (runs text) (sheet.mark "\x27" true false false)).mark
    "\x27" false false false

def escapeLetter? (point : CodePoint) : Option Char :=
  match point with
  | .char '\x00' => some '0'
  | .char '\x07' => some 'a'
  | .char '\x08' => some 'b'
  | .char '\t' => some 't'
  | .char '\n' => some 'n'
  | .char '\x0b' => some 'v'
  | .char '\x0c' => some 'f'
  | .char '\r' => some 'r'
  | .char '\x1b' => some 'e'
  | .char '\x22' => some '\x22'
  | .char '\x5c' => some '\x5c'
  | .char '\x85' => some 'N'
  | .char '\xa0' => some '_'
  | .char '\u2028' => some 'L'
  | .char '\u2029' => some 'P'
  | _ => none

def escape (point : CodePoint) : Text :=
  match escapeLetter? point with
  | some letter => [Text.backslash, letter]
  | none =>
    let code := point.code
    if code ≤ 0xFF then "\\x" ++ Text.upperHex 2 code
    else if code ≤ 0xFFFF then "\\u" ++ Text.upperHex 4 code
    else "\\U" ++ Text.upperHex 8 code

def isEscaped (point : CodePoint) : Bool :=
  point == '\x22' || point == '\x5c' || !(32 ≤ point.code && point.code ≤ 126)

/-- Folds a double-quoted text: a backslash ends the line, and another one protects a space at the
start of the next line. -/
def foldDouble (sheet : Sheet) (indent : Nat) (following : Option CodePoint) : Sheet :=
  let folded := ((sheet.put "\\").indentTo indent).inText
  if following == some (.char ' ') then folded.put "\\" else folded

/-- Writes double-quoted text. `pending` holds, in reverse, the code points that are not written
yet; `isFirst` tells that the next code point is the first one. -/
def putDoubleFrom (indent : Nat) (split : Bool) : Bool → Text → Text → Sheet → Sheet
  | _, pending, [], sheet => sheet.put pending.reverse
  | isFirst, pending, point :: rest, sheet =>
    let inside := !isFirst && !rest.isEmpty
    if isEscaped point then
      let written := (sheet.put pending.reverse).put (escape point)
      let next :=
        if inside && split && foldColumn + 1 < written.column then
          foldDouble written indent rest.head?
        else written
      putDoubleFrom indent split false [] rest next
    else if inside && split && (point == ' ' || pending.isEmpty)
        && foldColumn < sheet.column + pending.length then
      let next := foldDouble (sheet.put pending.reverse) indent (some point)
      putDoubleFrom indent split false [point] rest next
    else putDoubleFrom indent split false (point :: pending) rest sheet

def putDouble (sheet : Sheet) (indent : Nat) (split : Bool) (text : Text) : Sheet :=
  (putDoubleFrom indent split true [] text (sheet.mark "\x22" true false false)).mark
    "\x22" false false false

/-- Writes lines as they are, each with its line end. -/
def putLiteral (sheet : Sheet) (indent : Nat) (text : Text) : Sheet :=
  let lines := (Text.splitOn '\n' text).dropLast
  lines.foldl
    (fun current line => ((current.indentTo indent).put line).breakLine '\n')
    ((sheet.mark "|" true false false).breakLine '\n')

/-- The written name of a type. -/
def tagText : Tag → Text
  | .null => "!!null"
  | .boolean => "!!bool"
  | .integer => "!!int"
  | .real => "!!float"
  | .binary => "!!binary"
  | .timestamp => "!!timestamp"
  | .set => "!!set"
  | .text => "!!str"
  | .sequence => "!!seq"
  | .mapping => "!!map"
  | .tuple => "!!python/tuple"
  | _ => ""

/-- Writes the name of a type where the form of what follows does not show it. -/
def putTag (sheet : Sheet) (tag : Tag) : Sheet :=
  match tag with
  | .binary | .set | .tuple => sheet.mark (tagText tag) true false false
  | _ => sheet

/-- Writes a scalar of some type. Where the plain form would be read as another type, or is not
possible, it is quoted; bytes are written in lines. -/
def putScalar (sheet : Sheet) (indent : Nat) (isKey : Bool) (tag : Tag) (content : Text) : Sheet :=
  let shape := form content
  let oneLine := !(isKey && shape.multiline)
  if tag == .binary then
    if content.isEmpty then putDouble (putTag sheet tag) indent (!isKey) content
    else putLiteral (putTag sheet tag) indent content
  else if Plain.tag content == tag && oneLine && shape.plain then
    putPlain sheet indent (!isKey) content
  else if oneLine && shape.single then putSingle sheet indent (!isKey) content
  else putDouble sheet indent (!isKey) content

/-! ### Anchors -/

/-- The name of the anchor of a datum that is referred to. -/
def anchor? (repeated : List Identity) (identity : Option Identity) : Option Text :=
  match identity with
  | none => none
  | some identity =>
    (repeated.findIdx? (· == identity)).map fun index =>
      "id" ++ Text.padZeros 3 (Text.decimal (index + 1))

/-- Writes the anchor of a datum that is referred to. -/
def putAnchor (sheet : Sheet) (repeated : List Identity) (identity : Option Identity) : Sheet :=
  match anchor? repeated identity with
  | some name => sheet.mark ("&" ++ name) true false false
  | none => sheet

def putReference (sheet : Sheet) (repeated : List Identity) (identity : Identity) : Sheet :=
  sheet.mark ("*" ++ (anchor? repeated (some identity)).getD "") true false false

/-! ### Collections -/

/-- Whether a key stands on one line with its value. -/
def isSimpleKey (repeated : List Identity) : Outline → Bool
  | .again _ => true
  | .scalar identity tag content =>
    let shape := form content
    let length := ((anchor? repeated identity).getD []).length + (tagText tag).length
      + content.length
    !shape.empty && !shape.multiline && decide (length < keyLengthLimit)
  | _ => false

/-- A writer of one outline: the indentation of the level, whether the outline stands under a key,
and the sheet so far. The outermost level has no indentation. -/
abbrev Put := Option Nat → Bool → Sheet → Sheet

/-- The indentation of a scalar or of a new level. -/
def deeper : Option Nat → Nat
  | none => indentStep
  | some indent => indent + indentStep

/-- The indentation of a block below a level. -/
def blockIndent : Option Nat → Nat
  | none => 0
  | some indent => indent + indentStep

/-- Writes the items of a block sequence. -/
def putItems (items : List Put) (indent : Option Nat) (underKey : Bool) (sheet : Sheet) : Sheet :=
  let own :=
    match indent with
    | none => 0
    | some outer => if underKey && !sheet.indention then outer else outer + indentStep
  items.foldl
    (fun current item => item (some own) false ((current.indentTo own).mark "-" true false true))
    sheet

/-- Writes a key: on one line with its value, or behind a mark of its own. -/
def putKey (repeated : List Identity) (indent : Nat) (isSimple : Bool) (key : Outline)
    (sheet : Sheet) : Sheet :=
  match key with
  | .again identity => putReference sheet repeated identity
  | .scalar identity tag content =>
    putScalar (putAnchor sheet repeated identity) (indent + indentStep) isSimple tag content
  | _ => sheet

/-- Writes one entry of a block mapping. A key that is not simple gets a mark of its own. -/
def putEntry (repeated : List Identity) (indent : Nat) (sheet : Sheet) (entry : Outline × Put) :
    Sheet :=
  let (key, value) := entry
  let fresh := sheet.indentTo indent
  if isSimpleKey repeated key then
    let keyed := putKey repeated indent true key fresh
    value (some indent) true (keyed.mark ":" false false false)
  else
    let keyed := putKey repeated indent false key (fresh.mark "?" true false true)
    value (some indent) true ((keyed.indentTo indent).mark ":" true false true)

/-- Writes an empty collection. -/
def putBrackets (sheet : Sheet) (opening closing : Text) : Sheet :=
  (sheet.mark opening true true false).mark closing false false false

mutual

def put (repeated : List Identity) : Outline → Put
  | .again identity, _, _, sheet => putReference sheet repeated identity
  | .scalar identity tag content, indent, _, sheet =>
    putScalar (putAnchor sheet repeated identity) (deeper indent) false tag content
  | .sequence identity tag items, indent, underKey, sheet =>
    let begun := putTag (putAnchor sheet repeated identity) tag
    match putAll repeated items with
    | [] => putBrackets begun "[" "]"
    | writers => putItems writers indent underKey begun
  | .mapping identity tag entries, indent, _, sheet =>
    let begun := putTag (putAnchor sheet repeated identity) tag
    match putEntries repeated entries with
    | [] => putBrackets begun "\x7b" "\x7d"
    | writers => writers.foldl (putEntry repeated (blockIndent indent)) begun

/-- The writers of the items of a sequence. -/
def putAll (repeated : List Identity) : List Outline → List Put
  | [] => []
  | item :: rest => put repeated item :: putAll repeated rest

/-- The keys of a mapping with the writers of their values. -/
def putEntries (repeated : List Identity) : List (Outline × Outline) → List (Outline × Put)
  | [] => []
  | (key, value) :: rest => (key, put repeated value) :: putEntries repeated rest

end

/-- Whether an outline is written as a plain scalar, which needs an end mark on its own. -/
def isPlainRoot : Outline → Bool
  | .scalar _ tag content => Plain.tag content == tag && (form content).plain
  | _ => false

end Writer

/-- The text of an outline, with the data in it that are referred to. -/
def write (outline : Outline) (repeated : List Identity) : Text :=
  let sheet := (Writer.put repeated outline none false Writer.Sheet.blank).indentTo 0
  if Writer.isPlainRoot outline then
    ((sheet.mark "..." true false false).indentTo 0).text
  else sheet.text

def render (value : Value) : Text := write (Outline.ofValue value) []

/-- The text of a content, unless an integer in it has too many digits. -/
def renderContent (content : Content) : Except Numeral.Fault Text :=
  let (outline, trace) := Outline.ofContent content ⟨[], []⟩
  if outline.isWritable then .ok (write outline trace.repeated) else .error .tooLong

end LogicSignature.Yaml
