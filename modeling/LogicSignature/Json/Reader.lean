import LogicSignature.Number.Numeral
import LogicSignature.Value.Basic

/-
Reading JSON text. The reader works on the code points that are left and reports a fault as the
problem together with the number of code points left at the place where it shows; the position in
the text follows from that number.

Beyond the standard it accepts `NaN`, `Infinity` and `-Infinity`, keeps the last of repeated
fields, and lets an escaped surrogate half stand alone.
-/

namespace LogicSignature.Json

/-- What is wrong with a text. -/
inductive Problem where
  | byteOrderMark
  | expectedValue
  | expectedName
  | expectedColon
  | expectedComma
  | extraData
  | unterminatedString
  | controlCharacter
  | unknownEscape
  | brokenCodeEscape
  | tooManyDigits (count : Nat)
deriving DecidableEq, Repr

/-- A problem and the number of code points left at its place. -/
structure Stop where
  problem : Problem
  remaining : Nat
deriving DecidableEq, Repr

/-- The blanks between the parts of a document. -/
def isBlank (point : CodePoint) : Bool :=
  point == ' ' || point == '\t' || point == '\n' || point == '\r'

def skipBlanks (input : Text) : Text := input.dropWhile isBlank

/-! ### Strings -/

/-- The number that four hexadecimal digits spell. -/
def codeUnit? (first second third fourth : CodePoint) : Option Nat := do
  let a ← first.hexDigit?
  let b ← second.hexDigit?
  let c ← third.hexDigit?
  let d ← fourth.hexDigit?
  return ((a * 16 + b) * 16 + c) * 16 + d

/-- The low half that may follow a high half. The escape is read only when something follows it. -/
def lowHalf (high : Nat) (input : Text) : Except Stop (CodePoint × Text) :=
  match input with
  | .char '\x5c' :: .char 'u' :: a :: b :: c :: d :: next :: rest =>
    match codeUnit? a b c d with
    | none => .error ⟨.brokenCodeEscape, (next :: rest).length + 5⟩
    | some low =>
      if CodePoint.isLow low then .ok (.ofCode (CodePoint.join high low), next :: rest)
      else .ok (.ofCode high, input)
  | _ => .ok (.ofCode high, input)

/-- An escape by code unit, after its letter. The escape is complete only when something follows
its four digits. -/
def codeEscape (input : Text) : Except Stop (CodePoint × Text) :=
  match input with
  | a :: b :: c :: d :: next :: rest =>
    match codeUnit? a b c d with
    | none => .error ⟨.brokenCodeEscape, input.length + 1⟩
    | some unit =>
      if CodePoint.isHigh unit then lowHalf unit (next :: rest)
      else .ok (.ofCode unit, next :: rest)
  | _ => .error ⟨.brokenCodeEscape, input.length + 1⟩

def letterEscape? (letter : CodePoint) : Option CodePoint :=
  if letter == '\x22' || letter == '\x5c' || letter == '/' then some letter
  else if letter == 'b' then some (.char '\x08')
  else if letter == 'f' then some (.char '\x0c')
  else if letter == 'n' then some (.char '\n')
  else if letter == 'r' then some (.char '\r')
  else if letter == 't' then some (.char '\t')
  else none

/-- One escape, after its backslash. -/
def unescape (opening : Nat) (input : Text) : Except Stop (CodePoint × Text) :=
  match input with
  | [] => .error ⟨.unterminatedString, opening⟩
  | .char 'u' :: rest => codeEscape rest
  | letter :: rest =>
    match letterEscape? letter with
    | some point => .ok (point, rest)
    | none => .error ⟨.unknownEscape, input.length + 1⟩

/-- The content of a string up to its closing quote. `opening` is the number of code points left at
the opening quote; the bound is the number of code points left. -/
def stringBody (opening : Nat) : Nat → Text → Text → Except Stop (Text × Text)
  | 0, _, _ => .error ⟨.unterminatedString, opening⟩
  | _ + 1, _, [] => .error ⟨.unterminatedString, opening⟩
  | bound + 1, done, point :: rest =>
    if point == '\x22' then .ok (done.reverse, rest)
    else if point == '\x5c' then
      match unescape opening rest with
      | .error stop => .error stop
      | .ok (unescaped, after) => stringBody opening bound (unescaped :: done) after
    else if point.code < 32 then .error ⟨.controlCharacter, rest.length + 1⟩
    else stringBody opening bound (point :: done) rest

/-- A string, after its opening quote. -/
def string (input : Text) : Except Stop (Text × Text) :=
  stringBody (input.length + 1) (input.length + 1) [] input

/-! ### Numbers -/

def digitValues (digits : Text) : List Nat := digits.map (fun digit => digit.code - 48)

/-- The digits of the whole part: a zero alone, or digits that start with another one. -/
def wholePart (input : Text) : Option (Text × Text) :=
  match input with
  | .char '0' :: rest => some ("0", rest)
  | point :: _ =>
    if point.isAsciiDigit then
      some (input.takeWhile CodePoint.isAsciiDigit, input.dropWhile CodePoint.isAsciiDigit)
    else none
  | [] => none

/-- The digits of the fraction, if a point and a digit follow. -/
def fractionPart (input : Text) : Option (Text × Text) :=
  match input with
  | .char '.' :: rest =>
    match rest.takeWhile CodePoint.isAsciiDigit with
    | [] => none
    | digits => some (digits, rest.dropWhile CodePoint.isAsciiDigit)
  | _ => none

/-- The exponent, if the mark, an optional sign and a digit follow. -/
def exponentPart (input : Text) : Option (Int × Text) :=
  match input with
  | mark :: rest =>
    if mark == 'e' || mark == 'E' then
      let (negative, body) := Numeral.takeSign rest
      match body.takeWhile CodePoint.isAsciiDigit with
      | [] => none
      | digits =>
        some (Binary64.signed negative (Numeral.ofDigits 10 (digitValues digits)),
          body.dropWhile CodePoint.isAsciiDigit)
    else none
  | [] => none

/-- An unsigned number. A fraction or an exponent makes it a real. -/
def unsignedNumber (negative : Bool) (input : Text) : Except Problem (Value × Text) :=
  match wholePart input with
  | none => .error .expectedValue
  | some (whole, afterWhole) =>
    let fraction := fractionPart afterWhole
    let (fractionDigits, afterFraction) := fraction.getD ([], afterWhole)
    let exponent := exponentPart afterFraction
    let (power, rest) := exponent.getD (0, afterFraction)
    if fraction.isSome || exponent.isSome then
      let digits := Numeral.ofDigits 10 (digitValues (whole ++ fractionDigits))
      .ok (.real (Binary64.ofDecimal negative digits (power - fractionDigits.length)), rest)
    else if whole.length > Numeral.digitLimit then .error (.tooManyDigits whole.length)
    else .ok (.integer (Binary64.signed negative (Numeral.ofDigits 10 (digitValues whole))), rest)

/-- A number, with its sign. -/
def number (input : Text) : Except Stop (Value × Text) :=
  let outcome :=
    match input with
    | .char '-' :: rest => unsignedNumber true rest
    | _ => unsignedNumber false input
  match outcome with
  | .ok result => .ok result
  | .error problem => .error ⟨problem, input.length⟩

/-! ### Values -/

def words : List (Text × Value) :=
  [("null", .null), ("true", .boolean true), ("false", .boolean false),
    ("NaN", .real .undefined), ("Infinity", .real (.infinite false)),
    ("-Infinity", .real (.infinite true))]

def word? (input : Text) : Option (Value × Text) :=
  words.findSome? fun (spelling, value) =>
    if spelling.isPrefixOf input then some (value, input.drop spelling.length) else none

mutual

/-- A value. The bound limits the depth of calls. -/
def value : Nat → Text → Except Stop (Value × Text)
  | 0, input => .error ⟨.expectedValue, input.length⟩
  | bound + 1, input =>
    match input with
    | .char '\x22' :: rest =>
      match string rest with
      | .error stop => .error stop
      | .ok (content, after) => .ok (.text content, after)
    | .char '\x7b' :: rest =>
      match skipBlanks rest with
      | .char '\x7d' :: after => .ok (.record [], after)
      | body => members bound [] body
    | .char '[' :: rest =>
      match skipBlanks rest with
      | .char ']' :: after => .ok (.list [], after)
      | body => elements bound [] body
    | _ =>
      match word? input with
      | some result => .ok result
      | none => number input

/-- The elements of a list up to its closing bracket. -/
def elements : Nat → List Value → Text → Except Stop (Value × Text)
  | 0, _, input => .error ⟨.expectedValue, input.length⟩
  | bound + 1, done, input =>
    match value bound input with
    | .error stop => .error stop
    | .ok (item, after) =>
      match skipBlanks after with
      | .char ']' :: rest => .ok (.list (item :: done).reverse, rest)
      | .char ',' :: rest => elements bound (item :: done) (skipBlanks rest)
      | rest => .error ⟨.expectedComma, rest.length⟩

/-- The members of a record up to its closing brace. -/
def members : Nat → List (Text × Value) → Text → Except Stop (Value × Text)
  | 0, _, input => .error ⟨.expectedName, input.length⟩
  | bound + 1, done, input =>
    match input with
    | .char '\x22' :: inString =>
      match string inString with
      | .error stop => .error stop
      | .ok (name, afterName) =>
        match skipBlanks afterName with
        | .char ':' :: afterColon =>
          match value bound (skipBlanks afterColon) with
          | .error stop => .error stop
          | .ok (item, after) =>
            let fields := Value.setEntry name item done
            match skipBlanks after with
            | .char '\x7d' :: rest => .ok (.record fields, rest)
            | .char ',' :: rest => members bound fields (skipBlanks rest)
            | rest => .error ⟨.expectedComma, rest.length⟩
        | rest => .error ⟨.expectedColon, rest.length⟩
    | rest => .error ⟨.expectedName, rest.length⟩

end

/-- The value that a text holds, with blanks around it and nothing else. -/
def document (input : Text) : Except Stop Value :=
  match input with
  | .char '\uFEFF' :: _ => .error ⟨.byteOrderMark, input.length⟩
  | _ =>
    match value (2 * input.length + 2) (skipBlanks input) with
    | .error stop => .error stop
    | .ok (result, after) =>
      match skipBlanks after with
      | [] => .ok result
      | rest => .error ⟨.extraData, rest.length⟩

/-! ### Faults and their places -/

/-- A fault of a text: a problem at a place, or an integer with too many digits. -/
inductive Fault where
  | misplaced (problem : Problem) (line column position : Nat)
  | tooManyDigits (count : Nat)
deriving DecidableEq, Repr

def Problem.text : Problem → Text
  | .byteOrderMark => "Unexpected UTF-8 BOM (decode using utf-8-sig)"
  | .expectedValue => "Expecting value"
  | .expectedName => "Expecting property name enclosed in double quotes"
  | .expectedColon => "Expecting ':' delimiter"
  | .expectedComma => "Expecting ',' delimiter"
  | .extraData => "Extra data"
  | .unterminatedString => "Unterminated string starting at"
  | .controlCharacter => "Invalid control character at"
  | .unknownEscape => "Invalid \\escape"
  | .brokenCodeEscape => "Invalid \\uXXXX escape"
  | .tooManyDigits _ => "Too many digits"

def Fault.message : Fault → Text
  | .misplaced problem line column position =>
    problem.text ++ ": line " ++ Text.decimal line ++ " column " ++ Text.decimal column
      ++ " (char " ++ Text.decimal position ++ ")"
  | .tooManyDigits count => (Numeral.Fault.tooManyDigits count).message

/-- The place of a stop: lines and columns count from one, positions from zero. -/
def Stop.toFault (input : Text) (stop : Stop) : Fault :=
  match stop.problem with
  | .tooManyDigits count => .tooManyDigits count
  | problem =>
    let position := input.length - stop.remaining
    let before := input.take position
    let column := (before.reverse.takeWhile (fun point => point != .char '\n')).length + 1
    .misplaced problem (before.count (.char '\n') + 1) column position

def parse (text : Text) : Except Fault Value :=
  match document text with
  | .ok result => .ok result
  | .error stop => .error (stop.toFault text)

end LogicSignature.Json
