import LogicSignature.Text.Stream
import LogicSignature.Yaml.Scalar

/-
YAML tokens. Block structure, which the text shows by indentation alone, has start and end tokens of
its own; a key that is recognised by the colon behind it gets its key token in front.
-/

namespace LogicSignature.Yaml

/-- A token. `broken` ends the tokens of a text that cannot be read further. -/
inductive Token where
  | versionDirective (major : Int)
  | tagDirective (handle lead : String)
  | otherDirective
  | documentStart
  | documentEnd
  | streamEnd
  | blockSequenceStart
  | blockMappingStart
  | blockEnd
  | flowSequenceStart
  | flowSequenceEnd
  | flowMappingStart
  | flowMappingEnd
  | flowEntry
  | blockEntry
  | key
  | value
  | alias (name : String)
  | anchor (name : String)
  | tag (handle : Option String) (suffix : String)
  | scalar (content : Text) (plain : Bool)
  | broken (fault : Fault)
deriving DecidableEq, Repr

/-- A place where a key may have started: the number of the token, and where it stands. A required
key must turn out to be one. -/
structure PossibleKey where
  level : Int
  token : Nat
  required : Bool
  index : Nat
  line : Nat
  column : Nat

/-- The state of a lexer: the tokens so far, the depth of brackets, the indentations of the open
blocks, and the places where keys may have started. -/
structure Lexer where
  cursor : Cursor
  tokens : List Token
  count : Nat
  flowLevel : Int
  indent : Int
  indents : List Int
  keyAllowed : Bool
  possibleKeys : List PossibleKey

namespace Lexer

def start (cursor : Cursor) : Lexer := ⟨cursor, [], 0, 0, -1, [], true, []⟩

/-- Appends a token. The tokens are kept in reverse. -/
def push (lexer : Lexer) (token : Token) : Lexer :=
  { lexer with tokens := token :: lexer.tokens, count := lexer.count + 1 }

/-- Puts a token in front of the one with a number. -/
def insert (lexer : Lexer) (number : Nat) (token : Token) : Lexer :=
  let behind := lexer.count - number
  { lexer with
    tokens := lexer.tokens.take behind ++ token :: lexer.tokens.drop behind
    count := lexer.count + 1 }

def inFlow (lexer : Lexer) : Bool := lexer.flowLevel != 0

/-- Steps over characters. -/
def advance (lexer : Lexer) (count : Nat) : Lexer :=
  { lexer with cursor := lexer.cursor.advance count }

/-- How far a key may reach. -/
def maxKeyLength : Nat := 1024

/-- Whether a key can no longer be completed at a place. -/
def isStale (cursor : Cursor) (key : PossibleKey) : Bool :=
  key.line != cursor.line || decide (maxKeyLength < cursor.index - key.index)

/-- Forgets the keys that can no longer be completed; a required one must not be among them. -/
def dropStaleKeys (lexer : Lexer) : Except Fault Lexer :=
  let stale := isStale lexer.cursor
  if lexer.possibleKeys.any (fun key => stale key && key.required) then .error .malformed
  else
    .ok { lexer with possibleKeys := lexer.possibleKeys.filter (fun key => !stale key) }

/-- The possible key at the current depth of brackets. -/
def possibleKey? (lexer : Lexer) : Option PossibleKey :=
  lexer.possibleKeys.find? (fun key => key.level == lexer.flowLevel)

def withoutKey (lexer : Lexer) : Lexer :=
  { lexer with
    possibleKeys := lexer.possibleKeys.filter (fun key => key.level != lexer.flowLevel) }

/-- Forgets the possible key at the current depth; a required one must not be lost. -/
def dropKey (lexer : Lexer) : Except Fault Lexer :=
  match lexer.possibleKey? with
  | some key => if key.required then .error .malformed else .ok lexer.withoutKey
  | none => .ok lexer

/-- Notes that a key may start at the next token. -/
def noteKey (lexer : Lexer) : Except Fault Lexer :=
  if lexer.keyAllowed then
    match lexer.dropKey with
    | .error fault => .error fault
    | .ok cleared =>
      let cursor := lexer.cursor
      let required := !lexer.inFlow && decide (lexer.indent = (cursor.column : Int))
      .ok
        { cleared with
          possibleKeys :=
            ⟨lexer.flowLevel, lexer.count, required, cursor.index, cursor.line, cursor.column⟩
              :: cleared.possibleKeys }
  else .ok lexer

def closeBlocks (column : Int) : List Int → Lexer → Lexer
  | [], lexer => lexer
  | outer :: rest, lexer =>
    if column < lexer.indent then
      closeBlocks column rest ({ lexer with indent := outer, indents := rest }.push .blockEnd)
    else lexer

/-- Closes blocks outside brackets. -/
def unwind (lexer : Lexer) (column : Int) : Lexer :=
  if lexer.inFlow then lexer else closeBlocks column lexer.indents lexer

/-- Opens a block at a column if it is deeper than the current one. -/
def openBlock? (lexer : Lexer) (column : Int) : Option Lexer :=
  if lexer.indent < column then
    some { lexer with indent := column, indents := lexer.indent :: lexer.indents }
  else none

/-- Steps over spaces, comments and line ends. A new line outside brackets may start with a key. -/
def skipToToken : Nat → Lexer → Lexer
  | 0, lexer => lexer
  | bound + 1, lexer =>
    let spaced := lexer.cursor.skipSpaces
    let commented :=
      if spaced.isAt '#' then spaced.skipWhile (fun character => !isBreak character) else spaced
    match commented.lineBreak with
    | ([], _) => { lexer with cursor := commented }
    | (_, after) =>
      skipToToken bound
        { lexer with cursor := after, keyAllowed := lexer.keyAllowed || !lexer.inFlow }

/-! ### Directives -/

def directiveEnd (cursor : Cursor) : Except Fault Cursor :=
  let spaced := cursor.skipSpaces
  let commented :=
    if spaced.isAt '#' then spaced.skipWhile (fun character => !isBreak character) else spaced
  if endsLine (commented.peek 0) then .ok commented.lineBreak.2 else .error .malformed

def isDecimal (character : Char) : Bool := 48 ≤ character.toNat && character.toNat ≤ 57

/-- One number of a version. -/
def versionPart (cursor : Cursor) : Except Fault (Int × Cursor) :=
  let (digits, after) := cursor.takeWhile isDecimal
  if digits.isEmpty then .error after.faultHere
  else
    match after.beyondHere? with
    | some fault => .error fault
    | none =>
      match Numeral.parse (Text.ofChars digits) with
      | .error fault => .error (.misfit (.numeral fault))
      | .ok number => .ok (number, after)

/-- A version number: major, point, minor. -/
def versionNumber (cursor : Cursor) : Except Fault (Int × Cursor) :=
  match versionPart cursor.skipSpaces with
  | .error fault => .error fault
  | .ok (major, afterMajor) =>
    if !afterMajor.isAt '.' then .error afterMajor.faultHere
    else
      match versionPart afterMajor.next with
      | .error fault => .error fault
      | .ok (_, afterMinor) =>
        if !endsWord (afterMinor.peek 0) then .error .malformed else .ok (major, afterMinor)

/-- A tag handle: an exclamation mark, alone or around a word. -/
def tagHandle (cursor : Cursor) : Except Fault (String × Cursor) :=
  if !cursor.isAt '!' then .error cursor.faultHere
  else if cursor.peek 1 == some ' ' then .ok ("!", cursor.next)
  else
    let (word, after) := cursor.next.takeWhile isWordChar
    if after.isAt '!' then .ok (String.ofList ('!' :: word ++ ['!']), after.next)
    else .error after.faultHere

def isUriChar (character : Char) : Bool :=
  isWordChar character || ";/?:@&=+$,.!~*()[]".toList.contains character || character == '\x27'

/-- Percent escapes in a row, as bytes. -/
def uriEscapes : Nat → Cursor → Except Fault (List UInt8 × Cursor)
  | 0, cursor => .ok ([], cursor)
  | bound + 1, cursor =>
    match cursor.rest with
    | '%' :: high :: low :: _ =>
      match (CodePoint.char high).hexDigit?, (CodePoint.char low).hexDigit? with
      | some a, some b =>
        match uriEscapes bound (cursor.advance 3) with
        | .error fault => .error fault
        | .ok (more, final) => .ok (UInt8.ofNat (a * 16 + b) :: more, final)
      | _, _ => .error .malformed
    | '%' :: digits =>
      if digits.all (fun digit => (CodePoint.char digit).hexDigit?.isSome) then
        .error cursor.endFault
      else .error .malformed
    | _ => .ok ([], cursor)

def tagUri : Nat → Cursor → Except Fault (List Char × Cursor)
  | 0, cursor => .ok ([], cursor)
  | bound + 1, cursor =>
    let (run, after) := cursor.takeWhile isUriChar
    if after.isAt '%' then
      match uriEscapes (after.rest.length + 1) after with
      | .error fault => .error fault
      | .ok (bytes, next) =>
        match Utf8.decode bytes with
        | .error _ => .error next.faultHere
        | .ok decoded =>
          match tagUri bound next with
          | .error fault => .error fault
          | .ok (more, final) => .ok (run ++ decoded ++ more, final)
    else .ok (run, after)

/-- The characters of a tag; there is at least one. -/
def nonEmptyTagUri (cursor : Cursor) : Except Fault (String × Cursor) :=
  match tagUri (cursor.rest.length + 1) cursor with
  | .error fault => .error fault
  | .ok (characters, after) =>
    if after.index == cursor.index then .error cursor.faultHere
    else .ok (String.ofList characters, after)

/-- A directive, behind its mark. -/
def directive (cursor : Cursor) : Except Fault (Token × Cursor) :=
  let (name, after) := cursor.takeWhile isWordChar
  if name.isEmpty || !endsWord (after.peek 0) then .error after.faultHere
  else if name == "YAML".toList then
    match versionNumber after with
    | .error fault => .error fault
    | .ok (major, next) =>
      match directiveEnd next with
      | .error fault => .error fault
      | .ok final => .ok (.versionDirective major, final)
  else if name == "TAG".toList then
    match tagHandle after.skipSpaces with
    | .error fault => .error fault
    | .ok (handle, afterHandle) =>
      if !afterHandle.isAt ' ' then .error afterHandle.faultHere
      else
        match nonEmptyTagUri afterHandle.skipSpaces with
        | .error fault => .error fault
        | .ok (lead, afterLead) =>
          if !endsWord (afterLead.peek 0) then .error .malformed
          else
            match directiveEnd afterLead with
            | .error fault => .error fault
            | .ok final => .ok (.tagDirective handle lead, final)
  else
    match directiveEnd (after.skipWhile (fun character => !isBreak character)) with
    | .error fault => .error fault
    | .ok final => .ok (.otherDirective, final)

/-! ### Node properties -/

/-- The characters that may follow an anchor or an alias. -/
def endsAnchor (character : Option Char) : Bool :=
  isGap character || ((character.map "?:,]\x7d%@`".toList.contains).getD false)

/-- The name of an anchor or an alias, behind its mark. -/
def anchorName (cursor : Cursor) : Except Fault (String × Cursor) :=
  let (name, after) := cursor.takeWhile isWordChar
  if name.isEmpty || !endsAnchor (after.peek 0) then .error after.faultHere
  else .ok (String.ofList name, after)

/-- Whether a second exclamation mark stands in the word at the start of a text. -/
def hasSecondMark : List Char → Bool
  | [] => false
  | character :: rest =>
    if endsWord (some character) then false else character == '!' || hasSecondMark rest

/-- A tag at its exclamation mark. -/
def tagProperty (cursor : Cursor) : Except Fault (Token × Cursor) :=
  let outcome : Except Fault (Token × Cursor) :=
    if cursor.peek 1 == some '<' then
      match nonEmptyTagUri (cursor.advance 2) with
      | .error fault => .error fault
      | .ok (suffix, after) =>
        if after.isAt '>' then .ok (.tag none suffix, after.next) else .error after.faultHere
    else if isGap (cursor.peek 1) then .ok (.tag none "!", cursor.next)
    else
      let wordEnd := cursor.next.skipWhile (fun character => !endsWord (some character))
      let handled :=
        if hasSecondMark cursor.next.rest then tagHandle cursor
        else
          match wordEnd.beyondHere? with
          | some fault => .error fault
          | none => .ok ("!", cursor.next)
      match handled with
      | .error fault => .error fault
      | .ok (handle, afterHandle) =>
        match nonEmptyTagUri afterHandle with
        | .error fault => .error fault
        | .ok (suffix, after) => .ok (.tag (some handle) suffix, after)
  match outcome with
  | .error fault => .error fault
  | .ok (token, after) => if endsWord (after.peek 0) then .ok (token, after) else .error .malformed

/-! ### Tokens -/

/-- A bracket or mark of one character. -/
def single (lexer : Lexer) (token : Token) : Lexer := (lexer.advance 1).push token

def openFlow (lexer : Lexer) (token : Token) : Except Fault Lexer :=
  match lexer.noteKey with
  | .error fault => .error fault
  | .ok noted =>
    .ok ({ noted with flowLevel := noted.flowLevel + 1, keyAllowed := true }.single token)

def closeFlow (lexer : Lexer) (token : Token) : Except Fault Lexer :=
  match lexer.dropKey with
  | .error fault => .error fault
  | .ok dropped =>
    .ok ({ dropped with flowLevel := dropped.flowLevel - 1, keyAllowed := false }.single token)

def nextFlowEntry (lexer : Lexer) : Except Fault Lexer :=
  match { lexer with keyAllowed := true }.dropKey with
  | .error fault => .error fault
  | .ok dropped => .ok (dropped.single .flowEntry)

/-- Opens a block at the cursor for an entry or a key mark. Outside brackets these need a place
where a key may start. -/
def openForMark (lexer : Lexer) (opening : Token) : Except Fault Lexer :=
  if lexer.inFlow then .ok lexer
  else if !lexer.keyAllowed then .error lexer.cursor.next.faultHere
  else
    match lexer.openBlock? lexer.cursor.column with
    | some opened => .ok (opened.push opening)
    | none => .ok lexer

def blockEntry (lexer : Lexer) : Except Fault Lexer :=
  match lexer.openForMark .blockSequenceStart with
  | .error fault => .error fault
  | .ok opened =>
    match { opened with keyAllowed := true }.dropKey with
    | .error fault => .error fault
    | .ok dropped => .ok (dropped.single .blockEntry)

def explicitKey (lexer : Lexer) : Except Fault Lexer :=
  match lexer.openForMark .blockMappingStart with
  | .error fault => .error fault
  | .ok opened =>
    match { opened with keyAllowed := !opened.inFlow }.dropKey with
    | .error fault => .error fault
    | .ok dropped => .ok (dropped.single .key)

/-- A value mark. When a key may have started before, it has: its key token, and the start of a new
block mapping, go in front of it. -/
def valueMark (lexer : Lexer) : Except Fault Lexer :=
  match lexer.possibleKey? with
  | some key =>
    let keyed := lexer.withoutKey.insert key.token .key
    let opened :=
      if keyed.inFlow then keyed
      else
        match keyed.openBlock? key.column with
        | some opened => opened.insert key.token .blockMappingStart
        | none => keyed
    .ok ({ opened with keyAllowed := false }.single .value)
  | none =>
    match lexer.openForMark .blockMappingStart with
    | .error fault => .error fault
    | .ok opened =>
      match { opened with keyAllowed := !opened.inFlow }.dropKey with
      | .error fault => .error fault
      | .ok dropped => .ok (dropped.single .value)

def keyStart (lexer : Lexer) (read : Cursor → Except Fault (Token × Cursor)) :
    Except Fault Lexer :=
  match lexer.noteKey with
  | .error fault => .error fault
  | .ok noted =>
    match read noted.cursor with
    | .error fault => .error fault
    | .ok (token, after) => .ok ({ noted with cursor := after, keyAllowed := false }.push token)

def anchorToken (make : String → Token) (cursor : Cursor) : Except Fault (Token × Cursor) :=
  match anchorName cursor.next with
  | .error fault => .error fault
  | .ok (name, after) => .ok (make name, after)

def quotedToken (double : Bool) (cursor : Cursor) : Except Fault (Token × Cursor) :=
  match Scalar.quoted double cursor with
  | .error fault => .error fault
  | .ok (content, after) => .ok (.scalar content false, after)

def plainToken (lexer : Lexer) : Except Fault Lexer :=
  match lexer.noteKey with
  | .error fault => .error fault
  | .ok noted =>
    let plain := Scalar.plain noted.inFlow noted.indent noted.cursor
    .ok
      ({ noted with cursor := plain.cursor, keyAllowed := plain.newLine }.push
        (.scalar (Text.ofChars plain.content) true))

def blockToken (lexer : Lexer) (fold : Bool) : Except Fault Lexer :=
  match { lexer with keyAllowed := true }.dropKey with
  | .error fault => .error fault
  | .ok dropped =>
    match Scalar.block fold dropped.indent dropped.cursor with
    | .error fault => .error fault
    | .ok (content, after) =>
      .ok ({ dropped with cursor := after }.push (.scalar (Text.ofChars content) false))

/-- Closes all blocks before a directive or a document marker. -/
def closeDocument (lexer : Lexer) : Except Fault Lexer :=
  match (lexer.unwind (-1)).dropKey with
  | .error fault => .error fault
  | .ok dropped => .ok { dropped with keyAllowed := false }

def documentMark (lexer : Lexer) (token : Token) : Except Fault Lexer :=
  match lexer.closeDocument with
  | .error fault => .error fault
  | .ok closed => .ok ((closed.advance 3).push token)

def directiveToken (lexer : Lexer) : Except Fault Lexer :=
  match lexer.closeDocument with
  | .error fault => .error fault
  | .ok closed =>
    match directive closed.cursor.next with
    | .error fault => .error fault
    | .ok (token, after) => .ok ({ closed with cursor := after }.push token)

def startsPlain (inFlow : Bool) (character : Char) (following : Option Char) : Bool :=
  !(isGap (some character) || "-?:,[]\x7b\x7d#&*!|>%@`".toList.contains character
      || character == '\x27' || character == '\x22')
    || (!isGap following
      && (character == '-' || (!inFlow && (character == '?' || character == ':'))))

/-- Reads the token that starts with a character. -/
def tokenAt (lexer : Lexer) (character : Char) : Except Fault Lexer :=
  let cursor := lexer.cursor
  let following := cursor.peek 1
  let atMark := cursor.column == 0 && (character == '-' || character == '.')
  if character == '%' && cursor.column == 0 then lexer.directiveToken
  else if atMark && cursor.endsUnclear then .error cursor.endFault
  else if cursor.column == 0 && cursor.atMarker '-' then lexer.documentMark .documentStart
  else if cursor.column == 0 && cursor.atMarker '.' then lexer.documentMark .documentEnd
  else if character == '[' then lexer.openFlow .flowSequenceStart
  else if character == '\x7b' then lexer.openFlow .flowMappingStart
  else if character == ']' then lexer.closeFlow .flowSequenceEnd
  else if character == '\x7d' then lexer.closeFlow .flowMappingEnd
  else if character == ',' then lexer.nextFlowEntry
  else if character == '-' && isGap following then lexer.blockEntry
  else if character == '?' && (lexer.inFlow || isGap following) then lexer.explicitKey
  else if character == ':' && (lexer.inFlow || isGap following) then lexer.valueMark
  else if character == '*' then lexer.keyStart (anchorToken .alias)
  else if character == '&' then lexer.keyStart (anchorToken .anchor)
  else if character == '!' then lexer.keyStart tagProperty
  else if character == '|' && !lexer.inFlow then lexer.blockToken false
  else if character == '>' && !lexer.inFlow then lexer.blockToken true
  else if character == '\x27' then lexer.keyStart (quotedToken false)
  else if character == '\x22' then lexer.keyStart (quotedToken true)
  else if startsPlain lexer.inFlow character following then lexer.plainToken
  else .error cursor.next.faultHere

/-- The end of a step. A token is read up to the character behind it, and keys that cannot be
completed there are forgotten. -/
def settle (lexer : Lexer) : Except Fault Lexer :=
  match lexer.cursor.beyondHere? with
  | some fault => .error fault
  | none => lexer.dropStaleKeys

/-- Reads the next token, and tells whether it is the last one. What lies beyond the end of the text
comes before everything else. -/
def step (lexer : Lexer) : Except Fault (Lexer × Bool) :=
  let skipped := skipToToken (lexer.cursor.rest.length + 1) lexer
  match skipped.cursor.peek 0, skipped.cursor.beyond with
  | none, some fault => .error fault
  | character?, _ =>
    match skipped.dropStaleKeys with
    | .error fault => .error fault
    | .ok fresh =>
      let unwound := fresh.unwind fresh.cursor.column
      match character? with
      | none =>
        match unwound.closeDocument with
        | .error fault => .error fault
        | .ok closed => .ok (closed.push .streamEnd, true)
      | some character =>
        match unwound.tokenAt character with
        | .error fault => .error fault
        | .ok read =>
          match read.settle with
          | .error fault => .error fault
          | .ok next => .ok (next, false)

/-- The number of the first token that is held back, because it may still turn out to start a key.
-/
def heldFrom (lexer : Lexer) : Nat :=
  lexer.possibleKeys.foldl (fun least key => min least key.token) lexer.count

/-- The tokens in front of those that are held back, in reverse. -/
def released (lexer : Lexer) : List Token := lexer.tokens.drop (lexer.count - lexer.heldFrom)

/-- Reads tokens up to the end of the text or to the first fault. A fault comes before the tokens
that are still held back. -/
def run : Nat → Lexer → List Token
  | 0, lexer => lexer.tokens.reverse
  | bound + 1, lexer =>
    match lexer.step with
    | .error fault => (Token.broken fault :: lexer.released).reverse
    | .ok (next, true) => next.tokens.reverse
    | .ok (next, false) => run bound next

end Lexer

/-- The text up to the portion with the first character that the format does not allow, and the
fault that lies beyond. -/
def allowedText (text : List Char) (beyond : Option Fault) : List Char × Option Fault :=
  match text.findIdx? (fun character => !isAllowed character) with
  | none => (text, beyond)
  | some index => (Stream.portionsBefore index text, some .malformed)

/-- The tokens of a text, with the fault that lies beyond it if there is one. A leading byte-order
mark is skipped. -/
def tokens (text : List Char) (beyond : Option Fault) : List Token :=
  let (allowed, beyond) := allowedText text beyond
  let cursor := Cursor.start allowed beyond
  Lexer.run (2 * allowed.length + 2)
    (Lexer.start (if cursor.isAt '\uFEFF' then cursor.next else cursor))

end LogicSignature.Yaml
