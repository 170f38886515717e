import Mathlib.Data.List.TakeWhile
import LogicSignature.Json.Reader
import LogicSignature.Json.Writer
import LogicSignature.Proofs.ShortestDecimal

/-
Numbers in JSON text. The digits of an integer read back as the integer, and the shortest decimal of
a real number reads back as the number, whether it is written positionally or with an exponent.
-/

namespace LogicSignature

/-! ### Digits -/

/-- Characters that are all decimal digits. -/
def AllDigits (characters : List Char) : Prop := ∀ character ∈ characters, character.isDigit = true

theorem isAsciiDigit_char {character : Char} (hDigit : character.isDigit = true) :
    (CodePoint.char character).isAsciiDigit = true := by
  obtain ⟨hLow, hHigh⟩ := Char.isDigit_iff_toNat.mp hDigit
  rw [CodePoint.isAsciiDigit, CodePoint.code_char]
  exact Bool.and_eq_true_iff.mpr ⟨decide_eq_true hLow, decide_eq_true hHigh⟩

theorem allDigits_toDigits (number : Nat) : AllDigits (Nat.toDigits 10 number) :=
  fun _ hMember => Nat.isDigit_of_mem_toDigits (by decide) (by decide) hMember

theorem allDigits_zeros (count : Nat) : AllDigits (List.replicate count '0') := by
  intro character hMember
  rw [List.eq_of_mem_replicate hMember]
  rfl

theorem AllDigits.append {left right : List Char} (hLeft : AllDigits left)
    (hRight : AllDigits right) : AllDigits (left ++ right) := by
  intro character hMember
  rcases List.mem_append.mp hMember with hMember | hMember
  · exact hLeft character hMember
  · exact hRight character hMember

theorem exists_head_toDigits {number : Nat} (hNumber : 0 < number) :
    ∃ first rest, Nat.toDigits 10 number = first :: rest ∧ first ≠ '0' := by
  induction number using Nat.strongRecOn with
  | ind number ih =>
      by_cases hSmall : number < 10
      · have hDigit : ∀ digit < 10, 0 < digit → Nat.digitChar digit ≠ '0' := by decide
        exact ⟨_, [], Nat.toDigits_of_lt_base hSmall, hDigit number hSmall hNumber⟩
      · obtain ⟨first, rest, hDigits, hFirst⟩ := ih (number / 10) (by omega) (by omega)
        refine ⟨first, rest ++ [Nat.digitChar (number % 10)], ?_, hFirst⟩
        rw [Nat.toDigits_of_base_le (by decide) (by omega), hDigits, List.cons_append]

theorem Text.length_decimal_le {number limit : Nat} (hLimit : 0 < limit)
    (hShort : number < Nat.pow 10 limit) : (Text.decimal number).length ≤ limit := by
  rw [Text.decimal, Text.ofChars, List.length_map]
  exact (Nat.length_toDigits_le_iff (by decide) hLimit).mpr hShort

theorem takeWhile_digits {characters : List Char} {rest : Text} (hDigits : AllDigits characters)
    (hRest : ∀ point ∈ rest.head?, point.isAsciiDigit = false) :
    (Text.ofChars characters ++ rest).takeWhile CodePoint.isAsciiDigit = Text.ofChars characters ∧
      (Text.ofChars characters ++ rest).dropWhile CodePoint.isAsciiDigit = rest := by
  have hAll : ∀ point ∈ Text.ofChars characters, point.isAsciiDigit = true := by
    intro point hMember
    obtain ⟨character, hCharacter, rfl⟩ := List.mem_map.mp hMember
    exact isAsciiDigit_char (hDigits character hCharacter)
  rw [List.takeWhile_append_of_pos hAll, List.dropWhile_append_of_pos hAll]
  cases rest with
  | nil => exact ⟨List.append_nil _, rfl⟩
  | cons first others =>
      have hFirst : ¬ first.isAsciiDigit = true := by
        rw [hRest first rfl]
        decide
      rw [List.takeWhile_cons_of_neg hFirst, List.dropWhile_cons_of_neg hFirst, List.append_nil]
      exact ⟨rfl, rfl⟩

theorem ofDigits_digitValues (characters : List Char) :
    Numeral.ofDigits 10 (Json.digitValues (Text.ofChars characters)) =
      Nat.ofDigitChars 10 characters 0 := by
  rw [Nat.ofDigitChars_eq_foldl, Json.digitValues, Text.ofChars, Numeral.ofDigits, List.map_map,
    List.foldl_map]
  rfl

theorem ofDigitChars_zero (number : Nat) : Nat.ofDigitChars 10 ['0'] number = 10 * number := by
  rw [Nat.ofDigitChars_cons, Nat.ofDigitChars_nil, Nat.sub_self, Nat.add_zero]

namespace Json

/-! ### The parts of a number -/

/-- The digits of a whole part: a zero alone, or digits that do not start with zero. -/
structure IsWhole (whole : List Char) : Prop where
  digits : AllDigits whole
  zero_or_head : whole = ['0'] ∨ ∃ first rest, whole = first :: rest ∧ first ≠ '0'

theorem isWhole_toDigits (number : Nat) : IsWhole (Nat.toDigits 10 number) := by
  refine ⟨allDigits_toDigits number, ?_⟩
  by_cases hNumber : number = 0
  · rw [hNumber]
    exact .inl (Nat.toDigits_zero 10)
  · exact .inr (exists_head_toDigits (Nat.pos_of_ne_zero hNumber))

theorem wholePart_append {whole : List Char} {rest : Text} (hWhole : IsWhole whole)
    (hRest : ∀ point ∈ rest.head?, point.isAsciiDigit = false) :
    wholePart (Text.ofChars whole ++ rest) = some (Text.ofChars whole, rest) := by
  obtain ⟨hDigits, rfl | ⟨first, others, rfl, hFirst⟩⟩ := hWhole
  · rfl
  · obtain ⟨hTaken, hLeft⟩ := takeWhile_digits hDigits hRest
    have hPoint : CodePoint.isAsciiDigit (.char first) = true :=
      isAsciiDigit_char (hDigits first List.mem_cons_self)
    have hNotZero : CodePoint.char first ≠ .char '0' :=
      fun hSame => hFirst (CodePoint.char.inj hSame)
    rw [Text.ofChars, List.map_cons, List.cons_append] at *
    rw [wholePart]
    · rw [if_pos hPoint, hTaken, hLeft]
    · exact hNotZero

theorem fractionPart_append {fraction : List Char} {rest : Text} (hDigits : AllDigits fraction)
    (hFraction : fraction ≠ []) (hRest : ∀ point ∈ rest.head?, point.isAsciiDigit = false) :
    fractionPart (.char '.' :: (Text.ofChars fraction ++ rest)) =
      some (Text.ofChars fraction, rest) := by
  obtain ⟨hTaken, hLeft⟩ := takeWhile_digits hDigits hRest
  rw [fractionPart, hTaken, hLeft]
  cases fraction with
  | nil => exact absurd rfl hFraction
  | cons first others => rfl

theorem fractionPart_eq_none {rest : Text} (hRest : ∀ point ∈ rest.head?, point ≠ .char '.') :
    fractionPart rest = none := by
  cases rest with
  | nil => rfl
  | cons first others =>
      rw [fractionPart]
      intro tail hSame
      cases hSame
      exact hRest _ rfl rfl

theorem exponentPart_eq_none {rest : Text}
    (hRest : ∀ point ∈ rest.head?, point ≠ .char 'e' ∧ point ≠ .char 'E') :
    exponentPart rest = none := by
  cases rest with
  | nil => rfl
  | cons first others =>
      obtain ⟨hLower, hUpper⟩ := hRest first rfl
      rw [exponentPart, if_neg]
      simp only [Bool.or_eq_true, beq_iff_eq, hLower, hUpper, or_self, not_false_eq_true]

/-- An exponent as it is written: with its sign and at least two digits. -/
def exponentText (exponent : Int) : Text :=
  "e" ++ (if exponent < 0 then "-" else "+") ++ Text.padZeros 2 (Text.decimal exponent.natAbs)

theorem exists_exponentDigits (exponent : Int) :
    ∃ digits : List Char, AllDigits digits ∧ digits ≠ [] ∧
      Nat.ofDigitChars 10 digits 0 = exponent.natAbs ∧
      exponentText exponent =
        .char 'e' :: .char (if exponent < 0 then '-' else '+') :: Text.ofChars digits := by
  refine ⟨List.replicate (2 - (Text.decimal exponent.natAbs).length) '0' ++
    Nat.toDigits 10 exponent.natAbs, ?_, ?_, ?_, ?_⟩
  · exact (allDigits_zeros _).append (allDigits_toDigits _)
  · exact List.append_ne_nil_of_right_ne_nil _ Nat.toDigits_ne_nil
  · rw [Nat.ofDigitChars_append, Nat.ofDigitChars_replicate_zero, Nat.mul_zero,
      Nat.ofDigitChars_ten_toDigits]
  · rw [exponentText, Text.padZeros, Text.ofChars, List.map_append, List.map_replicate]
    by_cases hNegative : exponent < 0
    · rw [if_pos hNegative, if_pos hNegative]
      rfl
    · rw [if_neg hNegative, if_neg hNegative]
      rfl

theorem exponentPart_exponentText (exponent : Int) {rest : Text}
    (hRest : ∀ point ∈ rest.head?, point.isAsciiDigit = false) :
    exponentPart (exponentText exponent ++ rest) = some (exponent, rest) := by
  obtain ⟨digits, hDigits, hSome, hValue, hText⟩ := exists_exponentDigits exponent
  obtain ⟨hTaken, hLeft⟩ := takeWhile_digits hDigits hRest
  have hSign : Numeral.takeSign
      (.char (if exponent < 0 then '-' else '+') :: (Text.ofChars digits ++ rest)) =
      (decide (exponent < 0), Text.ofChars digits ++ rest) := by
    by_cases hNegative : exponent < 0
    · rw [if_pos hNegative, decide_eq_true hNegative]
      rfl
    · rw [if_neg hNegative, decide_eq_false hNegative]
      rfl
  have hExponent : Binary64.signed (decide (exponent < 0)) exponent.natAbs = exponent := by
    unfold Binary64.signed
    by_cases hNegative : exponent < 0
    · rw [decide_eq_true hNegative, if_pos rfl]
      omega
    · rw [decide_eq_false hNegative, if_neg (by decide)]
      omega
  rw [hText, List.cons_append, List.cons_append, exponentPart, if_pos (by decide), hSign]
  simp only [hTaken, hLeft]
  cases digits with
  | nil => exact absurd rfl hSome
  | cons first others =>
      change some (Binary64.signed _ (Numeral.ofDigits 10
        (digitValues (Text.ofChars (first :: others)))), rest) = _
      rw [ofDigits_digitValues, hValue, hExponent]

/-! ### Reading a number -/

/-- What may follow a value: nothing, a comma or a closing bracket. -/
def EndsValue (rest : Text) : Prop :=
  ∀ point ∈ rest.head?, point = .char ',' ∨ point = .char ']' ∨ point = .char '\x7d'

theorem EndsValue.not_number {rest : Text} (hRest : EndsValue rest) :
    ∀ point ∈ rest.head?, point.isAsciiDigit = false ∧ point ≠ .char '.' ∧
      point ≠ .char 'e' ∧ point ≠ .char 'E' := by
  intro point hPoint
  rcases hRest point hPoint with rfl | rfl | rfl <;> decide

section Shapes

variable (negative : Bool) {whole fraction : List Char} {rest : Text}

theorem unsignedNumber_whole (hWhole : IsWhole whole) (hRest : EndsValue rest)
    (hLength : (Text.ofChars whole).length ≤ Numeral.digitLimit) :
    unsignedNumber negative (Text.ofChars whole ++ rest) =
      .ok (.integer (Binary64.signed negative (Nat.ofDigitChars 10 whole 0)), rest) := by
  have hNotNumber := hRest.not_number
  rw [unsignedNumber, wholePart_append hWhole (fun point hPoint => (hNotNumber point hPoint).1)]
  simp only [fractionPart_eq_none (fun point hPoint => (hNotNumber point hPoint).2.1),
    Option.getD_none, exponentPart_eq_none (fun point hPoint => (hNotNumber point hPoint).2.2),
    Option.isSome_none, Bool.or_self, Bool.false_eq_true, if_false,
    if_neg (Nat.not_lt.mpr hLength), gt_iff_lt, ofDigits_digitValues]

/-- A fraction or an exponent makes a number real. -/
theorem unsignedNumber_real {input afterWhole afterFraction : Text} {power : Int}
    (hWhole : wholePart input = some (Text.ofChars whole, afterWhole))
    (hFraction : (fractionPart afterWhole).getD ([], afterWhole) =
      (Text.ofChars fraction, afterFraction))
    (hExponent : (exponentPart afterFraction).getD (0, afterFraction) = (power, rest))
    (hReal : (fractionPart afterWhole).isSome = true ∨ (exponentPart afterFraction).isSome = true) :
    unsignedNumber negative input =
      .ok (.real (Binary64.ofDecimal negative (Nat.ofDigitChars 10 (whole ++ fraction) 0)
        (power - fraction.length)), rest) := by
  have hDigits : Text.ofChars whole ++ Text.ofChars fraction = Text.ofChars (whole ++ fraction) :=
    List.map_append.symm
  have hLength : (Text.ofChars fraction).length = fraction.length := List.length_map _
  rw [unsignedNumber, hWhole]
  simp only [hFraction, hExponent, Bool.or_eq_true, hReal, if_true, hDigits, ofDigits_digitValues,
    hLength]

theorem unsignedNumber_fraction (hWhole : IsWhole whole) (hDigits : AllDigits fraction)
    (hFraction : fraction ≠ []) (hRest : EndsValue rest) :
    unsignedNumber negative (Text.ofChars whole ++ .char '.' :: (Text.ofChars fraction ++ rest)) =
      .ok (.real (Binary64.ofDecimal negative (Nat.ofDigitChars 10 (whole ++ fraction) 0)
        (-fraction.length)), rest) := by
  have hNotNumber := hRest.not_number
  have hPart :=
    fractionPart_append hDigits hFraction fun point hPoint => (hNotNumber point hPoint).1
  rw [← Int.zero_sub]
  apply unsignedNumber_real
  · exact wholePart_append hWhole (by simp +decide)
  · rw [hPart, Option.getD_some]
  · rw [exponentPart_eq_none fun point hPoint => (hNotNumber point hPoint).2.2, Option.getD_none]
  · rw [hPart]
    exact .inl rfl

theorem head?_exponentText (exponent : Int) {point : CodePoint}
    (hPoint : point ∈ (exponentText exponent ++ rest).head?) : point = .char 'e' := by
  cases hPoint
  rfl

theorem unsignedNumber_exponent (hWhole : IsWhole whole) (exponent : Int) (hRest : EndsValue rest) :
    unsignedNumber negative (Text.ofChars whole ++ (exponentText exponent ++ rest)) =
      .ok (.real (Binary64.ofDecimal negative (Nat.ofDigitChars 10 whole 0) exponent), rest) := by
  have hNotNumber := hRest.not_number
  have hPart := exponentPart_exponentText exponent fun point hPoint => (hNotNumber point hPoint).1
  have hRead : unsignedNumber negative (Text.ofChars whole ++ (exponentText exponent ++ rest)) =
      .ok (.real (Binary64.ofDecimal negative (Nat.ofDigitChars 10 (whole ++ []) 0)
        (exponent - ([] : List Char).length)), rest) := by
    apply unsignedNumber_real
    · apply wholePart_append hWhole
      intro point hPoint
      rw [head?_exponentText exponent hPoint]
      rfl
    · rw [fractionPart_eq_none, Option.getD_none]
      · rfl
      · intro point hPoint
        rw [head?_exponentText exponent hPoint]
        decide
    · rw [hPart, Option.getD_some]
    · rw [hPart]
      exact .inr rfl
  rwa [List.append_nil, List.length_nil, Nat.cast_zero, Int.sub_zero] at hRead

theorem unsignedNumber_fraction_exponent (hWhole : IsWhole whole) (hDigits : AllDigits fraction)
    (hFraction : fraction ≠ []) (exponent : Int) (hRest : EndsValue rest) :
    unsignedNumber negative
        (Text.ofChars whole ++
          .char '.' :: (Text.ofChars fraction ++ (exponentText exponent ++ rest))) =
      .ok (.real (Binary64.ofDecimal negative (Nat.ofDigitChars 10 (whole ++ fraction) 0)
        (exponent - fraction.length)), rest) := by
  have hNotNumber := hRest.not_number
  have hPart := exponentPart_exponentText exponent fun point hPoint => (hNotNumber point hPoint).1
  apply unsignedNumber_real
  · exact wholePart_append hWhole (by simp +decide)
  · rw [fractionPart_append hDigits hFraction, Option.getD_some]
    intro point hPoint
    rw [head?_exponentText exponent hPoint]
    rfl
  · rw [hPart, Option.getD_some]
  · rw [hPart]
    exact .inr rfl

end Shapes

theorem exists_digit_of_unsignedNumber {negative : Bool} {input : Text} {result : Value × Text}
    (hRead : unsignedNumber negative input = .ok result) :
    ∃ first rest, input = first :: rest ∧ first.isAsciiDigit = true := by
  rw [unsignedNumber] at hRead
  cases hWhole : wholePart input with
  | none =>
      rw [hWhole] at hRead
      cases hRead
  | some parts =>
      cases input with
      | nil => cases hWhole
      | cons first rest =>
          refine ⟨first, rest, rfl, ?_⟩
          by_cases hZero : first = .char '0'
          · rw [hZero]
            rfl
          · rw [wholePart] at hWhole
            · by_contra hDigit
              rw [if_neg hDigit] at hWhole
              cases hWhole
            · exact hZero

/-- Whether a code point opens a string, a record or a list. -/
def opensValue (point : CodePoint) : Bool :=
  point == '\x22' || point == '\x7b' || point == '['

theorem opensValue_of_digit {point : CodePoint} (hDigit : point.isAsciiDigit = true) :
    opensValue point = false := by
  rw [Bool.eq_false_iff]
  intro hOpens
  simp only [opensValue, Bool.or_eq_true, beq_iff_eq] at hOpens
  rcases hOpens with (rfl | rfl) | rfl <;> exact absurd hDigit (by decide)

section Plain

variable {input : Text} {result : Value × Text}

theorem value_of_number (hInput : ∀ point ∈ input.head?, opensValue point = false)
    (hWord : word? input = none) (bound : Nat) : value (bound + 1) input = number input := by
  rw [value, hWord]
  · rintro rest rfl
    exact absurd (hInput _ rfl) (by decide)
  · rintro rest rfl
    exact absurd (hInput _ rfl) (by decide)
  · rintro rest rfl
    exact absurd (hInput _ rfl) (by decide)

theorem exists_letters_of_mem_words {entry : Text × Value} (hEntry : entry ∈ words) :
    ∃ first second rest, entry.1 = first :: second :: rest ∧ first.isAsciiDigit = false ∧
      second.isAsciiDigit = false := by
  simp only [words, List.mem_cons, List.not_mem_nil, or_false] at hEntry
  rcases hEntry with rfl | rfl | rfl | rfl | rfl | rfl <;> exact ⟨_, _, _, rfl, rfl, rfl⟩

/-- No word has a digit at its first or second place. -/
theorem word?_eq_none (hDigit : (∃ first rest, input = first :: rest ∧ first.isAsciiDigit = true) ∨
      ∃ sign first rest, input = sign :: first :: rest ∧ first.isAsciiDigit = true) :
    word? input = none := by
  rw [word?, List.findSome?_eq_none_iff]
  intro entry hEntry
  apply if_neg
  intro hPrefix
  obtain ⟨first, second, rest, hSpelling, hFirst, hSecond⟩ := exists_letters_of_mem_words hEntry
  obtain ⟨behind, hInput⟩ := List.isPrefixOf_iff_prefix.mp hPrefix
  rw [hSpelling] at hInput
  rcases hDigit with ⟨digit, tail, rfl, hDigit⟩ | ⟨sign, digit, tail, rfl, hDigit⟩
  · cases hInput
    rw [hDigit] at hFirst
    cases hFirst
  · cases hInput
    rw [hDigit] at hSecond
    cases hSecond

/-- A number is read behind its sign, since no word and no other value starts like it. -/
theorem value_of_unsignedNumber {negative : Bool}
    (hRead : unsignedNumber negative input = .ok result) (bound : Nat) :
    value (bound + 1) ((if negative then "-" else "") ++ input) = .ok result := by
  obtain ⟨first, rest, rfl, hDigit⟩ := exists_digit_of_unsignedNumber hRead
  cases negative with
  | true =>
      change value (bound + 1) (.char '-' :: first :: rest) = _
      rw [value_of_number _ (word?_eq_none (.inr ⟨_, _, _, rfl, hDigit⟩)), number, hRead]
      rintro point ⟨rfl⟩
      rfl
  | false =>
      change value (bound + 1) (first :: rest) = _
      rw [value_of_number _ (word?_eq_none (.inl ⟨_, _, rfl, hDigit⟩)), number, hRead]
      · rintro others ⟨rfl⟩
        exact absurd hDigit (by decide)
      · rintro point ⟨rfl⟩
        exact opensValue_of_digit hDigit

end Plain

end Json

namespace Binary64

/-! ### The layout of a decimal -/

theorem exists_dropped_zeros (digits : List Char) :
    ∃ count, digits = dropTrailingZeros digits ++ List.replicate count '0' := by
  refine ⟨(digits.reverse.takeWhile (· == '0')).length, ?_⟩
  have hZeros : digits.reverse.takeWhile (· == '0') =
      List.replicate (digits.reverse.takeWhile (· == '0')).length '0' := by
    apply List.eq_replicate_of_mem
    intro character hMember
    have hZero := List.mem_takeWhile_imp hMember
    exact beq_iff_eq.mp hZero
  rw [dropTrailingZeros, ← List.reverse_replicate, ← hZeros, ← List.reverse_append,
    List.takeWhile_append_dropWhile, List.reverse_reverse]

section Layout

open Json

/-- An input reads as a real with the value `0.digits · 10 ^ point`. -/
def ReadsAs (negative : Bool) (digits : List Char) (point : Int) (input rest : Text) : Prop :=
  ∃ (number : Nat) (power : Int),
    unsignedNumber negative input = .ok (.real (ofDecimal negative number power), rest) ∧
    (number * 10 ^ power : ℚ) = Nat.ofDigitChars 10 digits 0 * 10 ^ (point - digits.length)

variable (negative : Bool) {digits : List Char} {rest : Text} (hDigits : AllDigits digits)
  (hHead : ∃ first others, digits = first :: others ∧ first ≠ '0') (hRest : EndsValue rest)

include hDigits hRest in
theorem readsAs_leading_zeros (hSome : digits ≠ []) (zeros : Nat) :
    ReadsAs negative digits (-zeros)
      (Text.ofChars ['0'] ++
        .char '.' :: (Text.ofChars (List.replicate zeros '0' ++ digits) ++ rest)) rest := by
  refine ⟨_, _, unsignedNumber_fraction negative (isWhole_toDigits 0)
    ((allDigits_zeros zeros).append hDigits) (List.append_ne_nil_of_right_ne_nil _ hSome) hRest, ?_⟩
  rw [Nat.ofDigitChars_append, Nat.ofDigitChars_append, ofDigitChars_zero, Nat.mul_zero,
    Nat.ofDigitChars_replicate_zero, Nat.mul_zero, List.length_append, List.length_replicate]
  congr 2
  omega

include hDigits hHead hRest in
theorem readsAs_trailing_zeros (zeros : Nat) :
    ReadsAs negative digits (digits.length + zeros)
      (Text.ofChars (digits ++ List.replicate zeros '0') ++
        .char '.' :: (Text.ofChars ['0'] ++ rest)) rest := by
  have hWhole : IsWhole (digits ++ List.replicate zeros '0') := by
    obtain ⟨first, others, rfl, hFirst⟩ := hHead
    exact ⟨hDigits.append (allDigits_zeros zeros), .inr ⟨first, _, rfl, hFirst⟩⟩
  refine ⟨_, _, unsignedNumber_fraction negative hWhole (allDigits_zeros 1) (by decide) hRest, ?_⟩
  rw [Nat.ofDigitChars_append, Nat.ofDigitChars_append, Nat.ofDigitChars_replicate_zero,
    ofDigitChars_zero, Int.add_comm, Int.add_sub_cancel, zpow_natCast, List.length_singleton]
  push_cast
  rw [zpow_neg_one]
  field_simp

include hDigits hHead hRest in
theorem readsAs_inner_point (places : Nat) (hPlaces : 0 < places)
    (hInner : places < digits.length) :
    ReadsAs negative digits places
      (Text.ofChars (digits.take places) ++
        .char '.' :: (Text.ofChars (digits.drop places) ++ rest)) rest := by
  have hWhole : IsWhole (digits.take places) := by
    refine ⟨fun character hMember => hDigits character (List.mem_of_mem_take hMember), .inr ?_⟩
    obtain ⟨first, others, rfl, hFirst⟩ := hHead
    obtain ⟨fewer, rfl⟩ := Nat.exists_eq_add_of_lt hPlaces
    exact ⟨first, others.take (0 + fewer), rfl, hFirst⟩
  have hSome : digits.drop places ≠ [] := by
    rw [ne_eq, List.drop_eq_nil_iff]
    omega
  refine ⟨_, _, unsignedNumber_fraction negative hWhole
    (fun character hMember => hDigits character (List.mem_of_mem_drop hMember)) hSome hRest, ?_⟩
  rw [List.take_append_drop, List.length_drop]
  congr 2
  omega

include hDigits hHead hRest in
theorem readsAs_exponent (point : Int) (hPositional : ¬ (-4 < point && point ≤ 16) = true) :
    ReadsAs negative digits point (layout digits point ++ rest) rest := by
  obtain ⟨first, others, rfl, hFirst⟩ := hHead
  have hWhole : IsWhole [first] := by
    refine ⟨fun character hMember => hDigits character ?_, .inr ⟨first, [], rfl, hFirst⟩⟩
    rw [List.mem_singleton.mp hMember]
    exact List.mem_cons_self
  unfold layout
  rw [if_neg hPositional]
  cases others with
  | nil =>
      refine ⟨Nat.ofDigitChars 10 [first] 0, point - 1, ?_, rfl⟩
      have hRead := unsignedNumber_exponent negative hWhole (point - 1) hRest
      simpa only [exponentText, List.append_assoc] using hRead
  | cons second others =>
      refine ⟨Nat.ofDigitChars 10 (first :: second :: others) 0,
        point - 1 - (second :: others).length, ?_, ?_⟩
      · have hRead := unsignedNumber_fraction_exponent negative hWhole
          (fun character hMember => hDigits character (List.mem_cons_of_mem _ hMember))
          (List.cons_ne_nil second others) (point - 1) hRest
        simp only [exponentText, List.append_assoc] at hRead ⊢
        exact hRead
      · congr 2
        simp only [List.length_cons]
        omega

include hDigits hHead hRest in
theorem readsAs_layout (point : Int) :
    ReadsAs negative digits point (layout digits point ++ rest) rest := by
  have hSome : digits ≠ [] := by
    obtain ⟨first, others, rfl, -⟩ := hHead
    exact List.cons_ne_nil _ _
  by_cases hPositional : (-4 < point && point ≤ 16) = true
  · unfold layout
    rw [if_pos hPositional]
    by_cases hBelow : point ≤ 0
    · obtain ⟨zeros, hZeros⟩ := Int.eq_ofNat_of_zero_le (by omega : 0 ≤ -point)
      obtain rfl : point = -zeros := by omega
      rw [if_pos hBelow, hZeros]
      exact readsAs_leading_zeros negative hDigits hRest hSome zeros
    · obtain ⟨places, rfl⟩ := Int.eq_ofNat_of_zero_le (by omega : 0 ≤ point)
      rw [if_neg hBelow, Int.toNat_natCast]
      by_cases hWhole : (digits.length : Int) ≤ places
      · have hPlaces : (places : Int) = digits.length + (places - digits.length : Nat) := by omega
        rw [if_pos hWhole, List.append_assoc]
        nth_rewrite 1 [hPlaces]
        exact readsAs_trailing_zeros negative hDigits hHead hRest _
      · rw [if_neg hWhole, List.append_assoc, List.append_assoc]
        exact readsAs_inner_point negative hDigits hHead hRest places (by omega) (by omega)
  · exact readsAs_exponent negative hDigits hHead hRest point hPositional

end Layout

/-! ### The text of a number -/

theorem exists_head_of_append_zeros {digits : List Char} {count : Nat}
    (hHead : ∃ first others, digits ++ List.replicate count '0' = first :: others ∧ first ≠ '0') :
    ∃ first others, digits = first :: others ∧ first ≠ '0' := by
  obtain ⟨first, others, hSame, hFirst⟩ := hHead
  cases digits with
  | nil =>
      have hZero : first ∈ List.replicate count '0' := by
        rw [← List.nil_append (List.replicate count '0'), hSame]
        exact List.mem_cons_self
      exact absurd (List.eq_of_mem_replicate hZero) hFirst
  | cons digit rest =>
      rw [List.cons_append, List.cons.injEq] at hSame
      exact ⟨digit, rest, rfl, hSame.1 ▸ hFirst⟩

theorem unsignedNumber_shortest (negative : Bool) {mantissa : Nat} {exponent : Int} {rest : Text}
    (hProper : Proper mantissa exponent) (hMantissa : 0 < mantissa) (hRest : Json.EndsValue rest) :
    let form := shortest mantissa exponent
    let all := Nat.toDigits 10 form.digits
    Json.unsignedNumber negative
        (layout (dropTrailingZeros all) ((all.length : Int) + form.power) ++ rest) =
      .ok (.real (.finite negative mantissa exponent), rest) := by
  intro form all
  have hRounds : RoundsTo mantissa exponent (form.digits * 10 ^ form.power) :=
    shortest_roundsTo hProper hMantissa
  have hHeadAll := exists_head_toDigits (digits_pos_of_roundsTo hProper hMantissa hRounds)
  have hDigitsAll := allDigits_toDigits form.digits
  have hNumber : Nat.ofDigitChars 10 all 0 = form.digits := Nat.ofDigitChars_ten_toDigits
  obtain ⟨count, hZeros⟩ := exists_dropped_zeros all
  change ∃ first others, all = first :: others ∧ first ≠ '0' at hHeadAll
  change AllDigits all at hDigitsAll
  generalize dropTrailingZeros all = kept at *
  generalize all = digits at *
  subst hZeros
  obtain ⟨number, power, hRead, hValue⟩ := readsAs_layout negative
    (fun character hMember => hDigitsAll character (List.mem_append_left _ hMember))
    (exists_head_of_append_zeros hHeadAll) hRest
    (((kept ++ List.replicate count '0').length : Int) + form.power)
  rw [Nat.ofDigitChars_append, Nat.ofDigitChars_replicate_zero] at hNumber
  rw [hRead, ofDecimal_of_roundsTo negative hProper hMantissa]
  rw [hValue, List.length_append, List.length_replicate,
    show ((kept.length + count : Nat) : Int) + form.power - kept.length = count + form.power by
      omega,
    zpow_add₀ (by norm_num), zpow_natCast]
  rw [← hNumber] at hRounds
  convert hRounds using 1
  push_cast
  ring

theorem unsignedNumber_zero (negative : Bool) {rest : Text} (hRest : Json.EndsValue rest) :
    Json.unsignedNumber negative ("0.0" ++ rest) = .ok (.real (zero negative), rest) := by
  have hRead := Json.unsignedNumber_fraction negative (Json.isWhole_toDigits 0)
    (allDigits_toDigits 0) Nat.toDigits_ne_nil hRest
  exact hRead

end Binary64

namespace Json

theorem value_integer {number : Int} (hWritable : Numeral.isWritable number = true) {rest : Text}
    (hRest : EndsValue rest) (bound : Nat) :
    value (bound + 1) (Text.signedDecimal number ++ rest) = .ok (.integer number, rest) := by
  unfold Numeral.isWritable Numeral.writableBound at hWritable
  have hUnsigned : ∀ (negative : Bool) (natural : Nat), natural < Nat.pow 10 Numeral.digitLimit →
      unsignedNumber negative (Text.decimal natural ++ rest) =
        .ok (.integer (Binary64.signed negative natural), rest) := by
    intro negative natural hShort
    have hLength := Text.length_decimal_le (by decide) hShort
    rw [Text.decimal] at hLength ⊢
    rw [unsignedNumber_whole negative (isWhole_toDigits natural) hRest hLength,
      Nat.ofDigitChars_ten_toDigits]
  have hShort := of_decide_eq_true hWritable
  cases number with
  | ofNat natural => exact value_of_unsignedNumber (hUnsigned false natural hShort) bound
  | negSucc natural =>
      have hRead := value_of_unsignedNumber (hUnsigned true (natural + 1) hShort) bound
      rwa [← List.append_assoc] at hRead

theorem value_real {number : Binary64} (hProper : number.IsProper) {rest : Text}
    (hRest : EndsValue rest) (bound : Nat) :
    value (bound + 1) (realText number ++ rest) = .ok (.real number, rest) := by
  cases number with
  | undefined => rfl
  | infinite negative => cases negative <;> rfl
  | finite negative mantissa exponent =>
      have hText : ∃ digits : Text, unsignedNumber negative (digits ++ rest) =
            .ok (.real (.finite negative mantissa exponent), rest) ∧
          realText (.finite negative mantissa exponent) =
            (if negative then "-" else "") ++ digits := by
        rw [realText]
        · by_cases hZero : mantissa = 0
          · have hLeast : exponent = Binary64.minExponent :=
              hProper.full_or_least.resolve_left (by omega)
            refine ⟨"0.0", ?_, ?_⟩
            · rw [Binary64.unsignedNumber_zero negative hRest, hZero, hLeast, Binary64.zero]
            · rw [Binary64.text, hZero]
              cases negative <;> rfl
          · refine ⟨_, Binary64.unsignedNumber_shortest negative hProper
              (Nat.pos_of_ne_zero hZero) hRest, ?_⟩
            rw [Binary64.text, if_neg (by simpa using hZero)]
            cases negative <;> rfl
        · rintro ⟨⟩
        · rintro other ⟨⟩
      obtain ⟨digits, hRead, hDigits⟩ := hText
      rw [hDigits, List.append_assoc]
      exact value_of_unsignedNumber hRead bound

end Json

end LogicSignature
