/-
Text as a sequence of code points. A document may escape half of a surrogate pair on its own, and no
character stands for a half, so a code point is a character or such a half.
-/

namespace LogicSignature

/-- A character, or half of a surrogate pair that stands alone. -/
inductive CodePoint where
  | char (character : Char)
  | half (index : Fin 2048)
deriving DecidableEq, Repr

namespace CodePoint

instance : Coe Char CodePoint := ⟨CodePoint.char⟩

/-- The number of a code point. The halves have the numbers from `0xD800` to `0xDFFF`. -/
def code : CodePoint → Nat
  | .char character => character.toNat
  | .half index => 0xD800 + index.val

/-- The code point with a number. A number beyond the code space gives the null character. -/
def ofCode (code : Nat) : CodePoint :=
  if h : 0xD800 ≤ code ∧ code < 0xE000 then .half ⟨code - 0xD800, by omega⟩
  else .char (Char.ofNat code)

/-- Whether a number is that of the first half of a pair. -/
def isHigh (code : Nat) : Bool := 0xD800 ≤ code && code ≤ 0xDBFF

/-- Whether a number is that of the second half of a pair. -/
def isLow (code : Nat) : Bool := 0xDC00 ≤ code && code ≤ 0xDFFF

/-- The number of the character that two halves stand for together. -/
def join (high low : Nat) : Nat := 0x10000 + (high - 0xD800) * 0x400 + (low - 0xDC00)

@[simp]
theorem code_char (character : Char) : (char character).code = character.toNat := rfl

@[simp]
theorem code_half (index : Fin 2048) : (half index).code = 0xD800 + index.val := rfl

/-- No character has the number of a half. -/
theorem char_valid (character : Char) :
    character.toNat < 0xD800 ∨ 0xE000 ≤ character.toNat ∧ character.toNat < 0x110000 := by
  have hValid := character.valid
  change character.toNat < 0xD800 ∨ 0xDFFF < character.toNat ∧ character.toNat < 0x110000 at hValid
  omega

theorem toNat_ofNat {code : Nat} (hValid : code < 0xD800 ∨ 0xDFFF < code ∧ code < 0x110000) :
    (Char.ofNat code).toNat = code := by
  rw [Char.ofNat, dif_pos hValid]
  rfl

/-- A code point is told from its number. -/
theorem ofCode_code (point : CodePoint) : ofCode point.code = point := by
  cases point with
  | char character =>
      have hValid := char_valid character
      rw [code_char, ofCode, dif_neg (by omega), Char.ofNat_toNat]
  | half index =>
      simp [ofCode, code]
      omega

end CodePoint

abbrev Text := List CodePoint

namespace Text

/-- The text that consists of the given characters. -/
def ofChars (characters : List Char) : Text := characters.map .char

def ofString (string : String) : Text := ofChars string.toList

instance : Coe String Text := ⟨ofString⟩

/-- The text as a string, with the replacement character in place of each half. -/
def asString (text : Text) : String :=
  String.ofList (text.map fun
    | .char character => character
    | .half _ => '\uFFFD')

def join (separator : Text) (parts : List Text) : Text := separator.intercalate parts

theorem join_singleton (separator part : Text) : join separator [part] = part :=
  List.intercalate_singleton

theorem join_cons_cons (separator part next : Text) (rest : List Text) :
    join separator (part :: next :: rest) =
      part ++ (separator ++ join separator (next :: rest)) := by
  rw [join, List.intercalate_cons_cons, List.append_assoc]
  rfl

/-- The order of texts by the numbers of their code points. -/
def order : Text → Text → Ordering
  | [], [] => .eq
  | [], _ :: _ => .lt
  | _ :: _, [] => .gt
  | first :: rest, other :: others =>
    match compare first.code other.code with
    | .eq => order rest others
    | different => different

/-- A text that consists of one code point, several times. -/
def repeated (count : Nat) (point : CodePoint) : Text := List.replicate count point

def splitOn (separator : CodePoint) : Text → List Text
  | [] => [[]]
  | point :: rest =>
    if point == separator then [] :: splitOn separator rest
    else
      match splitOn separator rest with
      | [] => [[point]]
      | first :: others => (point :: first) :: others

end Text

end LogicSignature
