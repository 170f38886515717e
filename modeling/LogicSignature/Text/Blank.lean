import LogicSignature.Text.CodePoint

/-
White space. Stripping text uses the Unicode property; hexadecimal text and the line-oriented
formats know ASCII blanks only.
-/

namespace LogicSignature

namespace CodePoint

/-- Space, tab, line feed, vertical tab, form feed and carriage return. -/
def isAsciiBlank (point : CodePoint) : Bool :=
  point.code == 32 || (9 ≤ point.code && point.code ≤ 13)

/-- The blanks outside ASCII: next line, no-break space and the Unicode separators. -/
def isWideBlank (point : CodePoint) : Bool :=
  let code := point.code
  code == 0x85 || code == 0xA0 || code == 0x1680 || (0x2000 ≤ code && code ≤ 0x200A) ||
    code == 0x2028 || code == 0x2029 || code == 0x202F || code == 0x205F || code == 0x3000

/-- Code points with the Unicode white-space behaviour, the four ASCII separators `0x1C` to `0x1F`
included. -/
def isBlank (point : CodePoint) : Bool :=
  point.isAsciiBlank || (28 ≤ point.code && point.code ≤ 31) || point.isWideBlank

end CodePoint

namespace Text

/-- Removes the code points of a class at both ends. -/
def stripBy (inClass : CodePoint → Bool) (text : Text) : Text :=
  ((text.dropWhile inClass).reverse.dropWhile inClass).reverse

/-- Removes white space at both ends. -/
def strip (text : Text) : Text := stripBy CodePoint.isBlank text

end Text

end LogicSignature
