import LogicSignature.Number.Numeral

/-
The types of YAML nodes, and the forms by which an untagged scalar has one: truth words, integers in
several bases, reals, null words, timestamps; everything else is text. A single line end behind the
content does not change its form.
-/

namespace LogicSignature.Yaml

/-- The type of a node. -/
inductive Tag where
  | null
  | boolean
  | integer
  | real
  | binary
  | timestamp
  | orderedMapping
  | pairs
  | set
  | text
  | sequence
  | mapping
  | merge
  | valueKey
  | tuple
  | unknown
deriving DecidableEq, Repr

/-- The beginning that the tags of the format's own types share. -/
def coreTagLead : String := "tag:yaml.org,2002:"

/-- The names of the types that a tag can ask for. -/
def Tag.names : List (String × Tag) :=
  [("null", .null), ("bool", .boolean), ("int", .integer), ("float", .real), ("binary", .binary),
    ("timestamp", .timestamp), ("omap", .orderedMapping), ("pairs", .pairs), ("set", .set),
    ("str", .text), ("seq", .sequence), ("map", .mapping), ("merge", .merge), ("value", .valueKey)]

/-- The type that a full tag names. -/
def Tag.ofText (text : String) : Tag :=
  match Tag.names.find? (fun entry => coreTagLead ++ entry.1 == text) with
  | some (_, tag) => tag
  | none => .unknown

namespace Plain

def isDigit (point : CodePoint) : Bool := point.isAsciiDigit

def isDigitOrLine (point : CodePoint) : Bool := isDigit point || point == '_'

def isSign (point : CodePoint) : Bool := point == '-' || point == '+'

/-- The text without its sign. -/
def unsigned : Text → Text
  | point :: rest => if isSign point then rest else point :: rest
  | [] => []

def startsWith (condition : CodePoint → Bool) : Text → Bool
  | point :: _ => condition point
  | [] => false

/-- At least one code point, all of a class. -/
def allOf (condition : CodePoint → Bool) (text : Text) : Bool :=
  !text.isEmpty && text.all condition

/-- A part of a number in base sixty: one digit, or two of which the first is at most five. -/
def isSixtieth : Text → Bool
  | [digit] => isDigit digit
  | [high, low] => isDigit high && decide (high.code ≤ 53) && isDigit low
  | _ => false

/-- A number in base sixty with at least two parts. -/
def isSexagesimal (first : Text → Bool) (text : Text) : Bool :=
  match Text.splitOn ':' text with
  | head :: next :: rest => first head && (next :: rest).all isSixtieth
  | _ => false

def truthWords : List Text :=
  ["yes", "Yes", "YES", "no", "No", "NO", "true", "True", "TRUE", "false", "False", "FALSE", "on",
    "On", "ON", "off", "Off", "OFF"]

def nullWords : List Text := ["", "~", "null", "Null", "NULL"]

/-- Digits and underscores that start with a digit. -/
def isDigitRun (text : Text) : Bool := startsWith isDigit text && text.all isDigitOrLine

/-- The same without a leading zero. -/
def isCountingRun (text : Text) : Bool :=
  startsWith (fun point => isDigit point && point != .char '0') text && text.all isDigitOrLine

/-- The forms of an integer: binary, octal, decimal, hexadecimal and in base sixty. -/
def isInteger (text : Text) : Bool :=
  let body := unsigned text
  match body with
  | [.char '0'] => true
  | .char '0' :: .char 'b' :: digits =>
    allOf (fun point => point == '0' || point == '1' || point == '_') digits
  | .char '0' :: .char 'x' :: digits =>
    allOf (fun point => point.hexDigit?.isSome || point == '_') digits
  | .char '0' :: digits =>
    allOf (fun point => (isDigit point && decide (point.code ≤ 55)) || point == '_') digits
  | _ => isCountingRun body || isSexagesimal isCountingRun body

/-- Nothing, or an exponent with its sign. -/
def isExponent : Text → Bool
  | [] => true
  | mark :: sign :: digits =>
    (mark == 'e' || mark == 'E') && isSign sign && allOf isDigit digits
  | _ => false

/-- Digits behind the point, and perhaps an exponent. -/
def isFraction (text : Text) : Bool := isExponent (text.dropWhile isDigitOrLine)

def infinityWords : List Text := [".inf", ".Inf", ".INF"]

def undefinedWords : List Text := [".nan", ".NaN", ".NAN"]

/-- The forms of a real: with a point, in base sixty with a point, infinite, or undefined. -/
def isReal (text : Text) : Bool :=
  let body := unsigned text
  let whole := body.takeWhile (fun point => isDigitOrLine point || point == ':')
  let behind := body.drop whole.length
  let pointed :=
    match behind with
    | .char '.' :: fraction =>
      (isDigitRun whole && isFraction fraction)
        || (isSexagesimal isDigitRun whole && fraction.all isDigitOrLine)
    | _ => false
  let bare :=
    match text with
    | .char '.' :: fraction => startsWith isDigit fraction && isFraction fraction
    | _ => false
  pointed || bare || infinityWords.contains body || undefinedWords.contains text

/-! ### Timestamps -/

/-- The parts of a timestamp as they are written. -/
structure Stamp where
  year : Nat
  month : Text
  day : Text
  time : Option (Nat × Nat × Nat)
  fraction : Text
  zone : Option (Option (Bool × Nat × Nat))

def numberOf (digits : Text) : Nat :=
  Numeral.ofDigits 10 (digits.map (fun digit => digit.code - 48))

/-- One or two digits at the start. -/
def oneOrTwo (text : Text) : Option (Text × Text) :=
  match text with
  | first :: second :: rest =>
    if isDigit first then
      if isDigit second then some ([first, second], rest) else some ([first], second :: rest)
    else none
  | [first] => if isDigit first then some ([first], []) else none
  | [] => none

/-- Exactly two digits at the start. -/
def two (text : Text) : Option (Nat × Text) :=
  match text with
  | first :: second :: rest =>
    if isDigit first && isDigit second then some (numberOf [first, second], rest) else none
  | _ => none

/-- A character at the start. -/
def expect (character : Char) : Text → Option Text
  | first :: rest => if first == character then some rest else none
  | [] => none

def isTabOrSpace (point : CodePoint) : Bool := point == ' ' || point == '\t'

/-- The time zone up to the end of the text: none, `Z`, or an offset with hours and minutes. -/
def zone? (text : Text) : Option (Option (Option (Bool × Nat × Nat))) :=
  match text with
  | [] => some none
  | _ =>
    match text.dropWhile isTabOrSpace with
    | [.char 'Z'] => some (some none)
    | sign :: rest =>
      if isSign sign then do
        let (hours, afterHours) ← oneOrTwo rest
        match afterHours with
        | [] => return some (some (sign == '-', numberOf hours, 0))
        | _ => do
          let (minutes, afterMinutes) ← two (← expect ':' afterHours)
          if afterMinutes.isEmpty then
            return some (some (sign == '-', numberOf hours, minutes))
          else none
      else none
    | [] => none

/-- The time of day and what follows it, up to the end of the text. -/
def timePart? (year : Nat) (month day : Text) (text : Text) : Option Stamp := do
  let body ←
    match text with
    | .char 'T' :: rest => some rest
    | .char 't' :: rest => some rest
    | first :: rest =>
      if isTabOrSpace first then some (rest.dropWhile isTabOrSpace) else none
    | [] => none
  let (hour, afterHour) ← oneOrTwo body
  let (minute, afterMinute) ← two (← expect ':' afterHour)
  let (second, afterSecond) ← two (← expect ':' afterMinute)
  let (fraction, afterFraction) : Text × Text :=
    match afterSecond with
    | .char '.' :: rest => (rest.takeWhile isDigit, rest.dropWhile isDigit)
    | rest => ([], rest)
  let zone ← zone? afterFraction
  return ⟨year, month, day, some (numberOf hour, minute, second), fraction, zone⟩

/-- The parts of a timestamp: a date, or a date and a time of day. -/
def stamp? (text : Text) : Option Stamp :=
  let year := text.take 4
  if year.length == 4 && year.all isDigit then do
    let (month, afterMonth) ← oneOrTwo (← expect '-' (text.drop 4))
    let (day, afterDay) ← oneOrTwo (← expect '-' afterMonth)
    match afterDay with
    | [] => return ⟨numberOf year, month, day, none, [], none⟩
    | rest => timePart? (numberOf year) month day rest
  else none

/-- Whether a scalar has the form of a timestamp. A date alone needs two digits for month and
day. -/
def isTimestamp (text : Text) : Bool :=
  match stamp? text with
  | some stamp => stamp.time.isSome || (stamp.month.length == 2 && stamp.day.length == 2)
  | none => false

def withoutLineEnd (text : Text) : Text :=
  if text.getLast? == some (.char '\n') then text.dropLast else text

/-- Marks that name no type when they stand alone. -/
def bareMarks : List Text := ["!", "&", "*"]

/-- The type of a scalar by its form. A line end alone is text. -/
def tag (content : Text) : Tag :=
  let body := if content.length ≤ 1 then content else withoutLineEnd content
  if truthWords.contains body then .boolean
  else if isReal body then .real
  else if isInteger body then .integer
  else if body == "<<" then .merge
  else if nullWords.contains body then .null
  else if isTimestamp body then .timestamp
  else if body == "=" then .valueKey
  else if bareMarks.contains body then .unknown
  else .text

end Plain

end LogicSignature.Yaml
