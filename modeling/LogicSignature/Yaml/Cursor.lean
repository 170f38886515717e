import LogicSignature.Yaml.Fault

/-
The place of a YAML reader in its text, with the character classes of the format. The column decides
about indentation.
-/

namespace LogicSignature.Yaml

/-- The characters that end a line. -/
def isBreak (character : Char) : Bool :=
  character == '\n' || character == '\r' || character == '\x85' || character == '\u2028'
    || character == '\u2029'

/-- The end of the text, or a line end. -/
def endsLine : Option Char → Bool
  | none => true
  | some character => isBreak character

/-- The end of the text, a line end, or a space. -/
def endsWord : Option Char → Bool
  | none => true
  | some character => isBreak character || character == ' '

/-- The end of the text, a line end, a space, or a tab. -/
def isGap : Option Char → Bool
  | none => true
  | some character => isBreak character || character == ' ' || character == '\t'

/-- Letters, digits, hyphen and underscore: the characters of anchors and handles. -/
def isWordChar (character : Char) : Bool :=
  let code := character.toNat
  (48 ≤ code && code ≤ 57) || (65 ≤ code && code ≤ 90) || (97 ≤ code && code ≤ 122)
    || character == '-' || character == '_'

/-- The characters a text may hold. -/
def isAllowed (character : Char) : Bool :=
  let code := character.toNat
  code == 9 || code == 10 || code == 13 || (32 ≤ code && code ≤ 126) || code == 0x85
    || (0xA0 ≤ code && code ≤ 0xD7FF) || (0xE000 ≤ code && code ≤ 0xFFFD) || 0x10000 ≤ code

/-- A place in a text. What lies beyond the end of the text is nothing, or a fault. -/
structure Cursor where
  rest : List Char
  beyond : Option Fault
  index : Nat
  line : Nat
  column : Nat

namespace Cursor

def start (text : List Char) (beyond : Option Fault) : Cursor := ⟨text, beyond, 0, 0, 0⟩

/-- The fault of a text that ends too early. -/
def endFault (cursor : Cursor) : Fault := cursor.beyond.getD .malformed

/-- What lies beyond the text, where the text ends. -/
def beyondHere? (cursor : Cursor) : Option Fault :=
  if cursor.rest.isEmpty then cursor.beyond else none

/-- The fault of a place where something else has to stand. Where the text ends, it is what lies
beyond. -/
def faultHere (cursor : Cursor) : Fault :=
  cursor.beyondHere?.getD .malformed

def peek (cursor : Cursor) (ahead : Nat) : Option Char := cursor.rest[ahead]?

def isAt (cursor : Cursor) (character : Char) : Bool := cursor.peek 0 == some character

/-- Steps over one character. -/
def next (cursor : Cursor) : Cursor :=
  match cursor.rest with
  | [] => cursor
  | character :: rest =>
    if character == '\r' && rest.head? == some '\n' then
      { cursor with rest, index := cursor.index + 1, column := cursor.column + 1 }
    else if isBreak character then
      { cursor with rest, index := cursor.index + 1, line := cursor.line + 1, column := 0 }
    else if character == '\uFEFF' then { cursor with rest, index := cursor.index + 1 }
    else { cursor with rest, index := cursor.index + 1, column := cursor.column + 1 }

/-- Steps over some characters. -/
def advance (cursor : Cursor) : Nat → Cursor
  | 0 => cursor
  | count + 1 => advance cursor.next count

/-- The characters ahead that satisfy a condition, and the place behind them. -/
def takeWhile (cursor : Cursor) (condition : Char → Bool) : List Char × Cursor :=
  let taken := cursor.rest.takeWhile condition
  (taken, cursor.advance taken.length)

def skipWhile (cursor : Cursor) (condition : Char → Bool) : Cursor :=
  (cursor.takeWhile condition).2

def skipSpaces (cursor : Cursor) : Cursor := cursor.skipWhile (· == ' ')

/-- Steps over a line end. All of them count as a line feed, except the two Unicode separators. -/
def lineBreak (cursor : Cursor) : List Char × Cursor :=
  match cursor.rest with
  | '\r' :: '\n' :: _ => (['\n'], cursor.advance 2)
  | character :: _ =>
    if character == '\u2028' || character == '\u2029' then ([character], cursor.next)
    else if isBreak character then (['\n'], cursor.next)
    else ([], cursor)
  | [] => ([], cursor)

/-- Whether a document marker stands at the cursor. -/
def atMarker (cursor : Cursor) (mark : Char) : Bool :=
  cursor.rest.take 3 == [mark, mark, mark] && isGap (cursor.peek 3)

/-- Whether the start or the end of a document is marked at the cursor. -/
def atDocumentMarker (cursor : Cursor) : Bool := cursor.atMarker '-' || cursor.atMarker '.'

/-- Whether the text ends, with a fault beyond it, before it is clear whether a document marker
stands at the cursor. -/
def endsUnclear (cursor : Cursor) : Bool :=
  let ahead := cursor.rest.take 4
  cursor.beyond.isSome
    && (ahead.length < 3 || ahead == ['-', '-', '-'] || ahead == ['.', '.', '.'])

/-- The end of the text. -/
def toEnd (cursor : Cursor) : Cursor := cursor.advance cursor.rest.length

end Cursor

end LogicSignature.Yaml
