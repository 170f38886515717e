import LogicSignature.Text.Digit
import LogicSignature.Text.Printable

/-
Quoted text: the form in which messages show a text value. The single quote is the delimiter unless
the text holds a single quote and no double quote. The delimiter, the backslash and every code point
that is not printable are escaped.
-/

namespace LogicSignature.Text

def singleQuote : Char := '\x27'

def doubleQuote : Char := '\x22'

def backslash : Char := '\x5c'

def delimiter (text : Text) : Char :=
  if text.contains (.char singleQuote) && !text.contains (.char doubleQuote) then doubleQuote
  else singleQuote

/-- An escape by number, as short as the number allows. -/
def escapeCode (code : Nat) : Text :=
  if code ≤ 0xFF then "\\x" ++ hex 2 code
  else if code ≤ 0xFFFF then "\\u" ++ hex 4 code
  else "\\U" ++ hex 8 code

def quotePoint (mark : Char) (point : CodePoint) : Text :=
  if point == mark || point == backslash then [backslash, point]
  else if point == '\t' then "\\t"
  else if point == '\n' then "\\n"
  else if point == '\r' then "\\r"
  else if point.isPrintable then [point]
  else escapeCode point.code

def quoted (text : Text) : Text :=
  let mark := delimiter text
  .char mark :: text.flatMap (quotePoint mark) ++ [.char mark]

end LogicSignature.Text
