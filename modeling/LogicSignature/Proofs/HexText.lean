import LogicSignature.Hex

/-
The hexadecimal text of bytes: two lower-case digits for each byte, from which the pairs give the
bytes back. It has no mark, no blank and no other character than digits.
-/

namespace LogicSignature.Hex

theorem hexDigit?_digitChar (digit : Nat) (hDigit : digit < 16) :
    (CodePoint.char (Nat.digitChar digit)).hexDigit? = some digit := by
  revert digit hDigit
  decide

/-- The digits of bytes as characters. -/
def digits (bytes : List UInt8) : List Char :=
  bytes.flatMap fun byte => [Nat.digitChar (byte.toNat / 16), Nat.digitChar (byte.toNat % 16)]

theorem byteText_eq (byte : UInt8) :
    byteText byte = Text.ofChars
      [Nat.digitChar (byte.toNat / 16), Nat.digitChar (byte.toNat % 16)] := by
  have hByte : byte.toNat < 256 := byte.toNat_lt
  rw [byteText, Text.hex]
  by_cases hShort : byte.toNat < 16
  · rw [Nat.toDigits_of_lt_base hShort, Nat.div_eq_of_lt hShort, Nat.mod_eq_of_lt hShort]
    rfl
  · rw [Nat.toDigits_of_base_le (by decide) (by omega), Nat.toDigits_of_lt_base (by omega)]
    rfl

theorem encode_eq_ofChars (bytes : List UInt8) : encode bytes = Text.ofChars (digits bytes) := by
  rw [encode, digits, Text.ofChars, List.map_flatMap]
  exact congrArg (List.flatMap · bytes) (funext byteText_eq)

theorem encode_cons (byte : UInt8) (rest : List UInt8) :
    encode (byte :: rest) = .char (Nat.digitChar (byte.toNat / 16)) ::
      .char (Nat.digitChar (byte.toNat % 16)) :: encode rest := by
  rw [encode, List.flatMap_cons, byteText_eq]
  rfl

theorem length_encode (bytes : List UInt8) : (encode bytes).length = 2 * bytes.length := by
  induction bytes with
  | nil => rfl
  | cons byte rest ih =>
      rw [encode_cons, List.length_cons, List.length_cons, List.length_cons, ih]
      omega

theorem exists_digit_of_mem_digits {bytes : List UInt8} {character : Char}
    (hMember : character ∈ digits bytes) : ∃ digit < 16, character = Nat.digitChar digit := by
  obtain ⟨byte, _, hDigit⟩ := List.mem_flatMap.mp hMember
  have hByte : byte.toNat < 256 := byte.toNat_lt
  simp only [List.mem_cons, List.not_mem_nil, or_false] at hDigit
  rcases hDigit with rfl | rfl
  · exact ⟨byte.toNat / 16, by omega, rfl⟩
  · exact ⟨byte.toNat % 16, by omega, rfl⟩

theorem char_not_mem_encode {character : Char}
    (hOther : ∀ digit < 16, Nat.digitChar digit ≠ character) (bytes : List UInt8) :
    .char character ∉ encode bytes := by
  rw [encode_eq_ofChars]
  intro hMember
  obtain ⟨_, hDigit, hSame⟩ := List.mem_map.mp hMember
  obtain ⟨digit, hSmall, rfl⟩ := exists_digit_of_mem_digits hDigit
  exact hOther digit hSmall (CodePoint.char.inj hSame)

theorem pairs_encode (bytes : List UInt8) : pairs (encode bytes) = some bytes := by
  induction bytes with
  | nil => rfl
  | cons byte rest ih =>
      have hByte : byte.toNat < 256 := byte.toNat_lt
      have hBlank : ∀ digit < 16,
          (CodePoint.char (Nat.digitChar digit)).isAsciiBlank = false := by decide
      have hValue : UInt8.ofNat (byte.toNat / 16 * 16 + byte.toNat % 16) = byte := by
        rw [Nat.div_add_mod', UInt8.ofNat_toNat]
      rw [encode_cons, pairs, hBlank _ (by omega), hexDigit?_digitChar _ (by omega),
        hexDigit?_digitChar _ (by omega), ih]
      simp only [Bool.false_eq_true, if_false, hValue]

theorem isMarked_encode (bytes : List UInt8) : isMarked (encode bytes) = false := by
  cases bytes with
  | nil => rfl
  | cons byte rest =>
      have hMark : ∀ digit < 16, ((CodePoint.char (Nat.digitChar digit) == 'x') ||
          (CodePoint.char (Nat.digitChar digit) == 'X')) = false := by decide
      rw [encode_cons]
      unfold isMarked
      split
      · rename_i hText
        simp only [List.cons.injEq] at hText
        rw [← hText.2.1]
        exact hMark _ (Nat.mod_lt _ (by decide))
      · rfl

theorem mem_drop_of_isMarked {text : Text} {point : CodePoint} (hMarked : isMarked text = true)
    (hMember : point ∈ text) (hPoint : point ∉ ([.char '0', .char 'x', .char 'X'] : Text)) :
    point ∈ text.drop 2 := by
  unfold isMarked at hMarked
  split at hMarked
  · rename_i mark rest
    simp only [Bool.or_eq_true, beq_iff_eq] at hMarked
    simp only [List.mem_cons] at hMember hPoint
    rcases hMember with rfl | rfl | hRest
    · simp at hPoint
    · rcases hMarked with rfl | rfl <;> simp at hPoint
    · exact hRest
  · cases hMarked

/-- No text is read that has another character than digits and blanks. -/
theorem pairs_eq_none_of_mem {text : Text} {point : CodePoint} (hMember : point ∈ text)
    (hBlank : point.isAsciiBlank = false) (hDigit : point.hexDigit? = none) :
    pairs text = none := by
  fun_induction pairs text with
  | case1 => cases hMember
  | case2 only hOnly =>
      rw [List.mem_singleton.mp hMember, hOnly] at hBlank
      cases hBlank
  | case3 only hOnly => rfl
  | case4 first second rest hFirst ih =>
      rcases List.mem_cons.mp hMember with rfl | hRest
      · rw [hFirst] at hBlank
        cases hBlank
      · exact ih hRest
  | case5 first second rest _ high low others hOthers hLow hHigh ih =>
      simp only [List.mem_cons] at hMember
      rcases hMember with rfl | rfl | hRest
      · rw [hHigh] at hDigit
        cases hDigit
      · rw [hLow] at hDigit
        cases hDigit
      · rw [ih hRest] at hOthers
        cases hOthers
  | case6 => rfl

theorem parse?_encode (bytes : List UInt8) : parse? (encode bytes) = some bytes := by
  rw [parse?, unmarked, isMarked_encode]
  exact pairs_encode bytes

theorem parse?_marked (bytes : List UInt8) : parse? ("0x" ++ encode bytes) = some bytes :=
  pairs_encode bytes

end LogicSignature.Hex
