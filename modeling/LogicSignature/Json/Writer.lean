import LogicSignature.Text.Quoted
import LogicSignature.Value.Basic

/-
Writing JSON text in ASCII: on one line, or with every item on a line of its own. Code points
outside ASCII and control characters are escaped by code unit.
-/

namespace LogicSignature.Json

def codeUnitEscape (unit : Nat) : Text := "\\u" ++ Text.hex 4 unit

/-- The code units of a code point: one, or a high half and a low half. -/
def codeUnits (code : Nat) : List Nat :=
  if code < 0x10000 then [code]
  else [0xD800 + (code - 0x10000) / 0x400, 0xDC00 + (code - 0x10000) % 0x400]

def escapePoint (point : CodePoint) : Text :=
  if point == '\x22' || point == '\x5c' then [Text.backslash, point]
  else if 32 ≤ point.code && point.code ≤ 126 then [point]
  else if point == '\n' then "\\n"
  else if point == '\r' then "\\r"
  else if point == '\t' then "\\t"
  else if point == '\x08' then "\\b"
  else if point == '\x0c' then "\\f"
  else (codeUnits point.code).flatMap codeUnitEscape

/-- A string with its quotes. -/
def quote (content : Text) : Text :=
  .char '\x22' :: content.flatMap escapePoint ++ [.char '\x22']

/-- A real number; the values that are no numbers have names. -/
def realText : Binary64 → Text
  | .undefined => "NaN"
  | .infinite negative => if negative then "-Infinity" else "Infinity"
  | finite => finite.text

mutual

/-- A value on one line. -/
def compact : Value → Text
  | .null => "null"
  | .boolean flag => if flag then "true" else "false"
  | .integer number => Text.signedDecimal number
  | .real number => realText number
  | .text content => quote content
  | .list items => "[" ++ Text.join ", " (compactItems items) ++ "]"
  | .record fields => "\x7b" ++ Text.join ", " (compactFields fields) ++ "\x7d"

def compactItems : List Value → List Text
  | [] => []
  | item :: rest => compact item :: compactItems rest

/-- The fields of a record, each on one line. -/
def compactFields : List (Text × Value) → List Text
  | [] => []
  | (name, value) :: rest => (quote name ++ ": " ++ compact value) :: compactFields rest

end

/-! ### Several lines -/

/-- One line of an indented text. -/
structure Line where
  level : Nat
  text : Text

def Line.indented (line : Line) : Text := Text.repeated (2 * line.level) ' ' ++ line.text

/-- Lines between brackets, which stay on one line when there is nothing between them. `before`
stands in front of the opening bracket, and `behind` follows the closing one. -/
def block (level : Nat) (before behind opening closing : Text) (lines : List Line) : List Line :=
  match lines with
  | [] => [⟨level, before ++ opening ++ closing ++ behind⟩]
  | lines => ⟨level, before ++ opening⟩ :: lines ++ [⟨level, closing ++ behind⟩]

mutual

/-- The lines of a value at a level of indentation, between two texts. -/
def lines (level : Nat) (before behind : Text) : Value → List Line
  | .list items => block level before behind "[" "]" (itemLines (level + 1) items)
  | .record fields => block level before behind "\x7b" "\x7d" (fieldLines (level + 1) fields)
  | single => [⟨level, before ++ compact single ++ behind⟩]

/-- The lines of the items of a list, with a comma behind each but the last. -/
def itemLines (level : Nat) : List Value → List Line
  | [] => []
  | item :: rest =>
    lines level [] (if rest.isEmpty then [] else ",") item ++ itemLines level rest

/-- The lines of the fields of a record, with a comma behind each but the last. -/
def fieldLines (level : Nat) : List (Text × Value) → List Line
  | [] => []
  | (name, value) :: rest =>
    lines level (quote name ++ ": ") (if rest.isEmpty then [] else ",") value
      ++ fieldLines level rest

end

/-- A value over several lines. -/
def indented (value : Value) : Text := Text.join "\n" ((lines 0 [] [] value).map Line.indented)

end LogicSignature.Json
