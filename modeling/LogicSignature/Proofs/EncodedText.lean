import Mathlib.Tactic.IntervalCases
import LogicSignature.Text.Utf8

/-
Text through its UTF-8 bytes. The bytes of a character are a leading byte, which announces how many
bytes follow and in which bounds, and those bytes; reading them gives the character back and leaves
what stands behind. So decoding undoes encoding, for any text that can be encoded.
-/

namespace LogicSignature.Utf8

/-! ### Leading bytes -/

theorem lead?_two {payload : Nat} (hLow : 2 ≤ payload) (hHigh : payload < 32) :
    lead? (0xC0 + payload) = some ⟨1, 0x80, 0xBF, payload⟩ := by
  rw [lead?, if_neg (by omega), if_neg (by omega), if_pos (by omega), Nat.add_sub_cancel_left]

/-- The second byte of three has bounds of its own behind two of the leading bytes: none of the
short codes below, and none of the surrogate halves above. -/
theorem lead?_three {payload : Nat} (hPayload : payload < 16) :
    lead? (0xE0 + payload) = some ⟨2, if payload = 0 then 0xA0 else 0x80,
      if payload = 13 then 0x9F else 0xBF, payload⟩ := by
  interval_cases payload <;> rfl

/-- Likewise the second byte of four: none of the shorter codes, and none beyond the last. -/
theorem lead?_four {payload : Nat} (hPayload : payload < 5) :
    lead? (0xF0 + payload) = some ⟨3, if payload = 0 then 0x90 else 0x80,
      if payload = 4 then 0x8F else 0xBF, payload⟩ := by
  interval_cases payload <;> rfl

theorem toNat_toUInt8 {number : Nat} (hNumber : number < 256) : number.toUInt8.toNat = number :=
  UInt8.toNat_ofNat_of_lt' hNumber

theorem tail_cons {low high bits : Nat} (hLow : low ≤ 0x80 + bits) (hHigh : 0x80 + bits ≤ high)
    (hBits : bits < 64) (count code good : Nat) (rest : List UInt8) :
    tail low high (count + 1) code good ((0x80 + bits).toUInt8 :: rest) =
      tail 0x80 0xBF count (code * 64 + bits) (good + 1) rest := by
  rw [tail, toNat_toUInt8 (by omega), if_pos (by simp [hLow, hHigh]), Nat.add_sub_cancel_left]

theorem tail_zero (low high code good : Nat) (rest : List UInt8) :
    tail low high 0 code good rest = .complete code rest := by
  rw [tail]

/-! ### Characters -/

/-- Bytes that are read as one code, whatever stands behind them: a leading byte, and as many bytes
as it announces. -/
def ReadAs (code : Nat) (bytes : List UInt8) : Prop :=
  ∃ byte after lead, bytes = byte :: after ∧ lead? byte.toNat = some lead ∧
    lead.continuation = after.length ∧
    ∀ rest, tail lead.low lead.high lead.continuation lead.payload 0 (after ++ rest) =
      .complete code rest

theorem readAs_one {code : Nat} (hCode : code < 0x80) : ReadAs code [code.toUInt8] := by
  refine ⟨_, [], ⟨0, 0x80, 0xBF, code⟩, rfl, ?_, rfl, fun rest => rfl⟩
  rw [toNat_toUInt8 (by omega), lead?, if_pos hCode]

theorem readAs_two {code : Nat} (hLow : 0x80 ≤ code) (hHigh : code < 0x800) :
    ReadAs code [(0xC0 + code / 64).toUInt8, (0x80 + code % 64).toUInt8] := by
  refine ⟨_, [_], ⟨1, 0x80, 0xBF, code / 64⟩, rfl, ?_, rfl, fun rest => ?_⟩
  · rw [toNat_toUInt8 (by omega), lead?_two (by omega) (by omega)]
  · dsimp only
    rw [List.singleton_append, tail_cons (by omega) (by omega) (by omega), tail_zero,
      Nat.div_add_mod']

theorem readAs_three {code : Nat} (hLow : 0x800 ≤ code) (hHigh : code < 0x10000)
    (hHalf : code < 0xD800 ∨ 0xDFFF < code) :
    ReadAs code [(0xE0 + code / 4096).toUInt8, (0x80 + code / 64 % 64).toUInt8,
      (0x80 + code % 64).toUInt8] := by
  refine ⟨_, [_, _], ⟨2, if code / 4096 = 0 then 0xA0 else 0x80,
    if code / 4096 = 13 then 0x9F else 0xBF, code / 4096⟩, rfl, ?_, rfl, fun rest => ?_⟩
  · rw [toNat_toUInt8 (by omega), lead?_three (by omega)]
  · have hCode : (code / 4096 * 64 + code / 64 % 64) * 64 + code % 64 = code := by omega
    dsimp only
    rw [List.cons_append, List.singleton_append, tail_cons (by split <;> omega)
      (by split <;> omega) (by omega), tail_cons (by omega) (by omega) (by omega), tail_zero, hCode]

theorem readAs_four {code : Nat} (hLow : 0x10000 ≤ code) (hHigh : code < 0x110000) :
    ReadAs code [(0xF0 + code / 262144).toUInt8, (0x80 + code / 4096 % 64).toUInt8,
      (0x80 + code / 64 % 64).toUInt8, (0x80 + code % 64).toUInt8] := by
  refine ⟨_, [_, _, _], ⟨3, if code / 262144 = 0 then 0x90 else 0x80,
    if code / 262144 = 4 then 0x8F else 0xBF, code / 262144⟩, rfl, ?_, rfl, fun rest => ?_⟩
  · rw [toNat_toUInt8 (by omega), lead?_four (by omega)]
  · have hCode : ((code / 262144 * 64 + code / 4096 % 64) * 64 + code / 64 % 64) * 64 +
        code % 64 = code := by omega
    dsimp only
    rw [List.cons_append, List.cons_append, List.singleton_append, tail_cons (by split <;> omega)
      (by split <;> omega) (by omega), tail_cons (by omega) (by omega) (by omega),
      tail_cons (by omega) (by omega) (by omega), tail_zero, hCode]

theorem readAs_encodeCode (character : Char) :
    ReadAs character.toNat (encodeCode character.toNat) := by
  have hValid := CodePoint.char_valid character
  unfold encodeCode
  split
  · exact readAs_one ‹_›
  split
  · exact readAs_two (by omega) ‹_›
  split
  · exact readAs_three (by omega) ‹_› (by omega)
  · exact readAs_four (by omega) (by omega)

/-! ### Texts -/

/-- The bytes of characters. -/
def bytesOf (characters : List Char) : List UInt8 :=
  characters.flatMap fun character => encodeCode character.toNat

theorem bytesOf_cons (character : Char) (rest : List Char) :
    bytesOf (character :: rest) = encodeCode character.toNat ++ bytesOf rest := rfl

theorem bytesOf_ascii {characters : List Char}
    (hAscii : ∀ character ∈ characters, character.toNat < 0x80) :
    bytesOf characters = characters.map fun character => character.toNat.toUInt8 := by
  induction characters with
  | nil => rfl
  | cons character rest ih =>
      obtain ⟨hFirst, hRest⟩ := List.forall_mem_cons.mp hAscii
      rw [bytesOf_cons, encodeCode, if_pos hFirst, ih hRest, List.singleton_append, List.map_cons]

theorem length_le_bytesOf (characters : List Char) :
    characters.length ≤ (bytesOf characters).length := by
  induction characters with
  | nil => exact Nat.le_refl _
  | cons character rest ih =>
      obtain ⟨byte, after, _, hBytes, _⟩ := readAs_encodeCode character
      rw [bytesOf_cons, hBytes, List.length_append, List.length_cons, List.length_cons]
      omega

theorem decodeFrom_encodeCode (character : Char) (bound position : Nat) (rest : List UInt8)
    (done : List Char) :
    decodeFrom (bound + 1) position (encodeCode character.toNat ++ rest) done =
      decodeFrom bound (position + (encodeCode character.toNat).length) rest
        (character :: done) := by
  obtain ⟨byte, after, lead, hBytes, hLead, hCount, hTail⟩ := readAs_encodeCode character
  rw [hBytes, List.cons_append, decodeFrom, hLead]
  simp only [hTail, Char.ofNat_toNat]
  rw [hCount, List.length_cons, Nat.add_assoc]

/-- The bound of the decoder is met by the number of characters, each of which takes one step. -/
theorem decodeFrom_bytesOf (characters : List Char) (bound position : Nat) (done : List Char)
    (hBound : characters.length ≤ bound) :
    decodeFrom bound position (bytesOf characters) done = .ok (done.reverse ++ characters) := by
  induction characters generalizing bound position done with
  | nil =>
      rw [List.append_nil]
      cases bound <;> rfl
  | cons character rest ih =>
      obtain ⟨left, rfl⟩ : ∃ left, bound = left + 1 :=
        Nat.exists_eq_add_one_of_ne_zero (Nat.ne_of_gt (Nat.lt_of_lt_of_le (Nat.succ_pos _) hBound))
      rw [bytesOf_cons, decodeFrom_encodeCode, ih _ _ _ (Nat.le_of_succ_le_succ hBound),
        List.reverse_cons, List.append_assoc, List.singleton_append]

theorem decode_bytesOf (characters : List Char) :
    decode (bytesOf characters) = .ok characters :=
  decodeFrom_bytesOf characters _ 0 [] (Nat.le_succ_of_le (length_le_bytesOf characters))

theorem encodeWith_ofChars (ofHalf : CodePoint → Option UInt8) (position : Nat)
    (characters : List Char) :
    encodeWith ofHalf position (Text.ofChars characters) = .ok (bytesOf characters) := by
  induction characters generalizing position with
  | nil => rfl
  | cons character rest ih =>
      rw [Text.ofChars, List.map_cons, encodeWith]
      rw [Text.ofChars] at ih
      rw [ih]
      rfl

/-- Only texts without halves can be encoded. -/
theorem exists_characters_of_encode {text : Text} {bytes : List UInt8}
    (hEncode : encode text = .ok bytes) :
    ∃ characters, text = Text.ofChars characters ∧ bytes = bytesOf characters := by
  unfold encode at hEncode
  generalize 0 = position at hEncode
  induction text generalizing position bytes with
  | nil =>
      cases hEncode
      exact ⟨[], rfl, rfl⟩
  | cons point rest ih =>
      cases point with
      | half index => simp [encodeWith] at hEncode
      | char character =>
          rw [encodeWith] at hEncode
          cases hRest : encodeWith (fun _ => none) (position + 1) rest with
          | error fault =>
              rw [hRest] at hEncode
              cases hEncode
          | ok others =>
              rw [hRest] at hEncode
              obtain ⟨characters, rfl, rfl⟩ := ih _ hRest
              cases hEncode
              exact ⟨character :: characters, rfl, rfl⟩

end LogicSignature.Utf8
