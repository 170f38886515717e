import LogicSignature.Yaml.Cursor

/-
The scalars of YAML text: plain, single-quoted, double-quoted, literal and folded. Line ends inside
a scalar are folded: one becomes a space, and of several all but the first are kept.
-/

namespace LogicSignature.Yaml.Scalar

abbrev Piece := List Char × Cursor

/-- The characters for a folded line end: the breaks after it, or a space when there are none. -/
def folded (lineEnd : List Char) (breaks : List Char) : List Char :=
  if lineEnd != ['\n'] then lineEnd ++ breaks
  else if breaks.isEmpty then [' ']
  else breaks

/-! ### Quoted scalars -/

/-- The line ends inside a quoted scalar. A document marker may not stand there. -/
def quotedBreaks : Nat → Cursor → Except Fault Piece
  | 0, cursor => .ok ([], cursor)
  | bound + 1, cursor =>
    if cursor.endsUnclear then .error cursor.endFault
    else if cursor.atDocumentMarker then .error .malformed
    else
      let cursor := cursor.skipWhile (fun character => character == ' ' || character == '\t')
      match cursor.peek 0 with
      | some character =>
        if isBreak character then
          let (lineEnd, after) := cursor.lineBreak
          match quotedBreaks bound after with
          | .error fault => .error fault
          | .ok (more, final) => .ok (lineEnd ++ more, final)
        else .ok ([], cursor)
      | none => .ok ([], cursor)

/-- The blanks or the line ends inside a quoted scalar. -/
def quotedSpaces (cursor : Cursor) : Except Fault Piece :=
  let (blanks, after) :=
    cursor.takeWhile (fun character => character == ' ' || character == '\t')
  match after.peek 0 with
  | none => .error after.endFault
  | some character =>
    if isBreak character then
      let (lineEnd, next) := after.lineBreak
      match quotedBreaks (next.rest.length + 1) next with
      | .error fault => .error fault
      | .ok (breaks, final) => .ok (folded lineEnd breaks, final)
    else .ok (blanks, after)

def letterEscape? (letter : Char) : Option Char :=
  match letter with
  | '0' => some '\x00'
  | 'a' => some '\x07'
  | 'b' => some '\x08'
  | 't' => some '\t'
  | '\t' => some '\t'
  | 'n' => some '\n'
  | 'v' => some '\x0b'
  | 'f' => some '\x0c'
  | 'r' => some '\r'
  | 'e' => some '\x1b'
  | ' ' => some ' '
  | '\x22' => some '\x22'
  | '\x5c' => some '\x5c'
  | '/' => some '/'
  | 'N' => some '\x85'
  | '_' => some '\xa0'
  | 'L' => some '\u2028'
  | 'P' => some '\u2029'
  | _ => none

/-- The number of digits of an escape by code point. -/
def codeEscapeLength? (letter : Char) : Option Nat :=
  match letter with
  | 'x' => some 2
  | 'u' => some 4
  | 'U' => some 8
  | _ => none

/-- The number that hexadecimal digits spell. -/
def hexNumber? (digits : List Char) : Option Nat :=
  digits.foldl
    (fun number digit => do
      let high ← number
      let low ← (CodePoint.char digit).hexDigit?
      return high * 16 + low)
    (some 0)

def escapedPoint (code : Nat) : Except Fault CodePoint :=
  if 0x80000000 ≤ code then .error (.misfit .codePointSize)
  else if 0x110000 ≤ code then .error (.misfit .codePoint)
  else .ok (.ofCode code)

/-- An escape, after its backslash. -/
def escape (cursor : Cursor) : Except Fault (Text × Cursor) :=
  match cursor.peek 0 with
  | none => .error cursor.endFault
  | some letter =>
    match letterEscape? letter with
    | some character => .ok ([.char character], cursor.next)
    | none =>
      match codeEscapeLength? letter with
      | some length =>
        let digits := cursor.next.rest.take length
        match hexNumber? digits with
        | none => .error .malformed
        | some code =>
          if digits.length < length then .error cursor.endFault
          else
            match escapedPoint code with
            | .error fault => .error fault
            | .ok point => .ok ([point], cursor.next.advance length)
      | none =>
        if isBreak letter then
          let (_, after) := cursor.lineBreak
          match quotedBreaks (after.rest.length + 1) after with
          | .error fault => .error fault
          | .ok (breaks, final) => .ok (Text.ofChars breaks, final)
        else .error .malformed

def endsQuotedRun (character : Char) : Bool :=
  character == '\x27' || character == '\x22' || character == '\x5c' || character == ' '
    || character == '\t' || isBreak character

/-- The characters of a quoted scalar up to the next blank, line end or closing quote. -/
def quotedRun (double : Bool) : Nat → Cursor → Except Fault (Text × Cursor)
  | 0, _ => .error .malformed
  | bound + 1, cursor =>
    let (run, after) := cursor.takeWhile (fun character => !endsQuotedRun character)
    let continueWith (middle : Text) (next : Cursor) : Except Fault (Text × Cursor) :=
      match quotedRun double bound next with
      | .error fault => .error fault
      | .ok (more, final) => .ok (Text.ofChars run ++ middle ++ more, final)
    match after.peek 0 with
    | none => .ok (Text.ofChars run, after)
    | some character =>
      if !double && character == '\x27' && after.peek 1 == some '\x27' then
        continueWith [.char '\x27'] (after.advance 2)
      else if (double && character == '\x27')
          || (!double && (character == '\x22' || character == '\x5c')) then
        continueWith [.char character] after.next
      else if double && character == '\x5c' then
        match escape after.next with
        | .error fault => .error fault
        | .ok (unescaped, next) => continueWith unescaped next
      else .ok (Text.ofChars run, after)

/-- A quoted scalar from behind its opening quote to behind its closing quote. -/
def quotedBody (double : Bool) : Nat → Cursor → Except Fault (Text × Cursor)
  | 0, _ => .error .malformed
  | bound + 1, cursor =>
    match quotedRun double (cursor.rest.length + 1) cursor with
    | .error fault => .error fault
    | .ok (run, after) =>
      if after.isAt (if double then '\x22' else '\x27') then .ok (run, after.next)
      else
        match quotedSpaces after with
        | .error fault => .error fault
        | .ok (spaces, next) =>
          match quotedBody double bound next with
          | .error fault => .error fault
          | .ok (more, final) => .ok (run ++ Text.ofChars spaces ++ more, final)

def quoted (double : Bool) (cursor : Cursor) : Except Fault (Text × Cursor) :=
  quotedBody double (cursor.rest.length + 1) cursor.next

/-! ### Plain scalars -/

def isFlowMark (character : Char) : Bool :=
  character == ',' || character == '[' || character == ']' || character == '\x7b'
    || character == '\x7d'

/-- Whether a plain run ends at a character, given the one behind it. -/
def endsPlainRun (inFlow : Bool) (character : Char) (following : Option Char) : Bool :=
  isGap (some character)
    || (character == ':' && (isGap following || (inFlow && (following.map isFlowMark).getD false)))
    || (inFlow && (isFlowMark character || character == '?'))

/-- The length of the plain run at the start of a text. -/
def plainRunLength (inFlow : Bool) : List Char → Nat
  | [] => 0
  | character :: rest =>
    if endsPlainRun inFlow character rest.head? then 0 else plainRunLength inFlow rest + 1

/-- Line ends and spaces behind the first line end inside a plain scalar. A document marker ends the
scalar: no result. -/
def plainBreaks : Nat → Cursor → Option Piece
  | 0, cursor => some ([], cursor)
  | bound + 1, cursor =>
    match cursor.peek 0 with
    | none => some ([], cursor)
    | some character =>
      if character == ' ' then plainBreaks bound cursor.next
      else if isBreak character then
        let (lineEnd, after) := cursor.lineBreak
        if after.endsUnclear || after.atDocumentMarker then none
        else
          match plainBreaks bound after with
          | none => none
          | some (more, final) => some (lineEnd ++ more, final)
      else some ([], cursor)

/-- What stands between two runs of a plain scalar. -/
structure PlainGap where
  content : List Char
  cursor : Cursor
  crossedLine : Bool

/-- The place behind spaces and line ends, wherever a document marker stops them. Where it is not
clear whether there is one, that is the end of the text. -/
def skipPlainBreaks : Nat → Cursor → Cursor
  | 0, cursor => cursor
  | bound + 1, cursor =>
    match cursor.peek 0 with
    | none => cursor
    | some character =>
      if character == ' ' then skipPlainBreaks bound cursor.next
      else if isBreak character then
        let (_, after) := cursor.lineBreak
        if after.endsUnclear then after.toEnd
        else if after.atDocumentMarker then after
        else skipPlainBreaks bound after
      else cursor

def plainGap (cursor : Cursor) : PlainGap :=
  let (blanks, after) := cursor.takeWhile (· == ' ')
  match after.peek 0 with
  | none => ⟨blanks, after, false⟩
  | some character =>
    if isBreak character then
      let (lineEnd, next) := after.lineBreak
      if next.endsUnclear then ⟨[], next.toEnd, true⟩
      else if next.atDocumentMarker then ⟨[], next, true⟩
      else
        match plainBreaks (next.rest.length + 1) next with
        | none => ⟨[], skipPlainBreaks (next.rest.length + 1) next, true⟩
        | some (breaks, final) => ⟨folded lineEnd breaks, final, true⟩
    else ⟨blanks, after, false⟩

/-- A plain scalar: its text, the place behind it, and whether a new line has started behind it. -/
structure Plain where
  content : List Char
  cursor : Cursor
  newLine : Bool

/-- A plain scalar with what is left of it after `before`. Outside brackets it ends where a line is
indented less than `indent`. Whether it ends at a colon depends on the character behind that. -/
def plainFrom (inFlow : Bool) (indent : Int) : Nat → List Char → Bool → Cursor → Plain
  | 0, _, newLine, cursor => ⟨[], cursor, newLine⟩
  | bound + 1, before, newLine, cursor =>
    if cursor.isAt '#' then ⟨[], cursor, newLine⟩
    else
      let length := plainRunLength inFlow cursor.rest
      let stop := cursor.advance length
      if stop.rest == [':'] && stop.beyond.isSome then ⟨[], stop.toEnd, newLine⟩
      else if length == 0 then ⟨[], cursor, newLine⟩
      else
        let run := cursor.rest.take length
        let gap := plainGap stop
        if gap.content.isEmpty || gap.cursor.isAt '#'
            || (!inFlow && decide ((gap.cursor.column : Int) < indent)) then
          ⟨before ++ run, gap.cursor, gap.crossedLine⟩
        else
          let more := plainFrom inFlow indent bound gap.content gap.crossedLine gap.cursor
          ⟨before ++ run ++ more.content, more.cursor, more.newLine⟩

/-- A plain scalar at the cursor, inside a block of the given indentation. -/
def plain (inFlow : Bool) (blockIndent : Int) (cursor : Cursor) : Plain :=
  plainFrom inFlow (blockIndent + 1) (cursor.rest.length + 1) [] false cursor

/-! ### Block scalars -/

/-- What becomes of the line ends at the end of a block scalar. -/
inductive Chomping where
  | clip
  | strip
  | keep
deriving DecidableEq

def chomping? (character : Char) : Option Chomping :=
  if character == '+' then some .keep else if character == '-' then some .strip else none

/-- The indentation digit of a block header; zero is not allowed. -/
def indentDigit? (character : Option Char) : Option Nat :=
  match character with
  | some character =>
    if 48 ≤ character.toNat && character.toNat ≤ 57 then some (character.toNat - 48) else none
  | none => none

/-- The header of a block scalar behind its mark, up to the first line of content. -/
def blockHeader (cursor : Cursor) : Except Fault (Chomping × Option Nat × Cursor) :=
  let mark := (cursor.peek 0).bind chomping?
  let (chomping, increment, after) :=
    match mark with
    | some chomping =>
      match indentDigit? (cursor.peek 1) with
      | some digit => (chomping, some digit, cursor.advance 2)
      | none => (chomping, none, cursor.next)
    | none =>
      match indentDigit? (cursor.peek 0) with
      | some digit =>
        match (cursor.peek 1).bind chomping? with
        | some chomping => (chomping, some digit, cursor.advance 2)
        | none => (Chomping.clip, some digit, cursor.next)
      | none => (Chomping.clip, none, cursor)
  if increment == some 0 || !endsWord (after.peek 0) then .error .malformed
  else
    let spaced := after.skipSpaces
    let commented :=
      if spaced.isAt '#' then spaced.skipWhile (fun character => !isBreak character) else spaced
    if endsLine (commented.peek 0) then .ok (chomping, increment, commented.lineBreak.2)
    else .error .malformed

/-- Leading blank lines when the indentation is not yet known: the line ends, the widest indentation
seen, and the place behind them. -/
def blockIndentation : Nat → Nat → Cursor → List Char × Nat × Cursor
  | 0, widest, cursor => ([], widest, cursor)
  | bound + 1, widest, cursor =>
    match cursor.peek 0 with
    | none => ([], widest, cursor)
    | some character =>
      if character == ' ' then
        let after := cursor.next
        blockIndentation bound (max widest after.column) after
      else if isBreak character then
        let (lineEnd, after) := cursor.lineBreak
        let (more, final) := blockIndentation bound widest after
        (lineEnd ++ more, final)
      else ([], widest, cursor)

/-- Steps over spaces up to a column. -/
def skipIndent (indent : Nat) : Nat → Cursor → Cursor
  | 0, cursor => cursor
  | bound + 1, cursor =>
    if cursor.column < indent && cursor.isAt ' ' then skipIndent indent bound cursor.next
    else cursor

/-- Blank lines inside a block scalar of known indentation. -/
def blockBreaks (indent : Nat) : Nat → Cursor → Piece
  | 0, cursor => ([], cursor)
  | bound + 1, cursor =>
    let indented := skipIndent indent (indent + 1) cursor
    match indented.peek 0 with
    | some character =>
      if isBreak character then
        let (lineEnd, after) := indented.lineBreak
        let (more, final) := blockBreaks indent bound after
        (lineEnd ++ more, final)
      else ([], indented)
    | none => ([], indented)

def isBlankChar : Option Char → Bool
  | some character => character == ' ' || character == '\t'
  | none => false

/-- The content lines of a block scalar: the text, the last line end, the blank lines behind it, and
the place behind all. -/
def blockLines (fold : Bool) (indent : Nat) :
    Nat → List Char → Cursor → List Char × List Char × List Char × Cursor
  | 0, breaks, cursor => ([], [], breaks, cursor)
  | bound + 1, breaks, cursor =>
    if cursor.column == indent && (cursor.peek 0).isSome then
      let leadsWithText := !isBlankChar (cursor.peek 0)
      let (line, afterLine) := cursor.takeWhile (fun character => !isBreak character)
      let (lineEnd, afterEnd) := afterLine.lineBreak
      let (nextBreaks, next) := blockBreaks indent (afterEnd.rest.length + 1) afterEnd
      if next.column == indent && (next.peek 0).isSome then
        let joint :=
          if fold && lineEnd == ['\n'] && leadsWithText && !isBlankChar (next.peek 0) then
            (if nextBreaks.isEmpty then [' '] else [])
          else lineEnd
        let (more, final) := blockLines fold indent bound nextBreaks next
        (breaks ++ line ++ joint ++ more, final)
      else (breaks ++ line, lineEnd, nextBreaks, next)
    else ([], [], breaks, cursor)

/-- A block scalar at its mark, inside a block of the given indentation. -/
def block (fold : Bool) (blockIndent : Int) (cursor : Cursor) : Except Fault Piece :=
  match blockHeader cursor.next with
  | .error fault => .error fault
  | .ok (chomping, increment, start) =>
    let least := max 1 (blockIndent + 1).toNat
    let bound := start.rest.length + 1
    let (indent, breaks, first) :=
      match increment with
      | none =>
        let (breaks, widest, first) := blockIndentation bound 0 start
        (max least widest, breaks, first)
      | some increment =>
        let indent := least + increment - 1
        let (breaks, first) := blockBreaks indent bound start
        (indent, breaks, first)
    let (content, lineEnd, tail, final) := blockLines fold indent bound breaks first
    let ending :=
      match chomping with
      | .strip => []
      | .clip => lineEnd
      | .keep => lineEnd ++ tail
    .ok (content ++ ending, final)

end LogicSignature.Yaml.Scalar
