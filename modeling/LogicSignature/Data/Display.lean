import LogicSignature.Data.Basic
import LogicSignature.Number.Numeral
import LogicSignature.Text.Quoted

/-
The one-line display of data in messages and plain output. Text inside a collection is quoted; a
text on its own is shown as it is. An integer with too many digits cannot be shown.
-/

namespace LogicSignature

namespace Atom

/-- The spelling of a truth value. -/
def truthName (flag : Bool) : Text := if flag then "True" else "False"

def quoteByte (mark : Char) (byte : UInt8) : Text :=
  let character := Char.ofNat byte.toNat
  if character == mark || character == Text.backslash then [Text.backslash, character]
  else if character == '\t' then "\\t"
  else if character == '\n' then "\\n"
  else if character == '\r' then "\\r"
  else if 32 ≤ byte.toNat && byte.toNat ≤ 126 then [character]
  else "\\x" ++ Text.hex 2 byte.toNat

def bytesText (content : List UInt8) : Text :=
  let mark := Text.delimiter (Text.ofChars (content.map (fun byte => Char.ofNat byte.toNat)))
  .char 'b' :: .char mark :: content.flatMap (quoteByte mark) ++ [.char mark]

/-- The span of a zone offset in days and seconds. -/
def spanText (offset : Int) : Text :=
  let days := offset / 86400
  let seconds := offset % 86400
  let parts : List Text :=
    (if days == 0 then [] else ["days=" ++ Text.signedDecimal days])
      ++ (if seconds == 0 then [] else ["seconds=" ++ Text.signedDecimal seconds])
  "datetime.timedelta(" ++ Text.join ", " (if parts.isEmpty then ["0"] else parts) ++ ")"

def zoneText (offset : Int) : Text :=
  if offset == 0 then "datetime.timezone.utc"
  else "datetime.timezone(" ++ spanText offset ++ ")"

def innerDate (date : Calendar.Date) : Text :=
  "datetime.date(" ++ Text.signedDecimal date.year ++ ", " ++ Text.decimal date.month ++ ", "
    ++ Text.decimal date.day ++ ")"

/-- The parts of a date and time, without zeros at the end of the time of day. -/
def innerMoment (instant : Calendar.Moment) : Text :=
  let day := instant.date
  let time := instant.time
  let tail :=
    if time.microsecond != 0 then [time.second, time.microsecond]
    else if time.second != 0 then [time.second]
    else []
  let parts : List Text :=
    [Text.signedDecimal day.year, Text.decimal day.month, Text.decimal day.day,
      Text.decimal time.hour, Text.decimal time.minute] ++ tail.map Text.decimal
      ++ (match instant.offset with
        | some offset => ["tzinfo=" ++ zoneText offset]
        | none => [])
  "datetime.datetime(" ++ Text.join ", " parts ++ ")"

/-- The display of an atom as part of a collection. -/
def inner : Atom → Text
  | .null => "None"
  | .boolean flag => truthName flag
  | .integer number => Text.signedDecimal number
  | .real number => number.text
  | .text content => content.quoted
  | .bytes content => bytesText content
  | .date day => innerDate day
  | .moment instant => innerMoment instant

def display : Atom → Text
  | .text content => content
  | .date day => day.text
  | .moment instant => instant.text
  | other => other.inner

def isShowable : Atom → Bool
  | .integer number => Numeral.isWritable number
  | _ => true

end Atom

namespace Data

mutual

/-- The display of a datum as part of another one. -/
def inner : Data → Text
  | .atom content => content.inner
  | .list items => "[" ++ Text.join ", " (innerItems items) ++ "]"
  | .pair first second => "(" ++ inner first ++ ", " ++ inner second ++ ")"
  | .set members =>
    if members.isEmpty then "set()"
    else "\x7b" ++ Text.join ", " (members.map Atom.inner) ++ "\x7d"
  | .mapping entries => "\x7b" ++ Text.join ", " (innerEntries entries) ++ "\x7d"
  | .enclosing ofMapping => if ofMapping then "\x7b...\x7d" else "[...]"

def innerItems : List Data → List Text
  | [] => []
  | item :: rest => inner item :: innerItems rest

def innerEntries : List (Atom × Data) → List Text
  | [] => []
  | (key, value) :: rest => (key.inner ++ ": " ++ inner value) :: innerEntries rest

end

/-- The display of a datum on its own. -/
def display : Data → Text
  | .atom content => content.display
  | other => other.inner

mutual

/-- Whether a datum can be shown: all its integers have few enough digits. -/
def isShowable : Data → Bool
  | .atom content => content.isShowable
  | .list items => allShowable items
  | .pair first second => isShowable first && isShowable second
  | .set members => members.all Atom.isShowable
  | .mapping entries => entriesShowable entries
  | .enclosing _ => true

def allShowable : List Data → Bool
  | [] => true
  | item :: rest => isShowable item && allShowable rest

def entriesShowable : List (Atom × Data) → Bool
  | [] => true
  | (key, value) :: rest => key.isShowable && isShowable value && entriesShowable rest

end

/-- The display of a datum, unless one of its integers has too many digits. -/
def shown (data : Data) : Except Numeral.Fault Text :=
  if data.isShowable then .ok data.display else .error .tooLong

end Data

end LogicSignature
