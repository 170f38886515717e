import Mathlib.Data.List.Forall2
import LogicSignature.Proofs.EncodedText
import LogicSignature.Settings.Environment
import LogicSignature.Storage.Tree

/-
Names by their bytes.

Two texts can have the same bytes: a character, and the halves that stand for its bytes one by one.
The system keeps bytes, so such texts name the same variable and the same file. Every sequence of
bytes is that of some text, and splitting a text at its slashes splits its bytes at theirs, so a
path leads where its bytes lead.
-/

namespace LogicSignature

namespace Utf8

/-! ### Characters from their bytes -/

/-- What a leading byte announces, by the number of bytes that follow. -/
inductive Announces : Nat → Lead → Prop
  | one {byte : Nat} (hByte : byte < 0x80) : Announces byte ⟨0, 0x80, 0xBF, byte⟩
  | two {payload : Nat} (hLow : 2 ≤ payload) (hHigh : payload < 32) :
      Announces (0xC0 + payload) ⟨1, 0x80, 0xBF, payload⟩
  | three {payload : Nat} (hPayload : payload < 16) :
      Announces (0xE0 + payload) ⟨2, if payload = 0 then 0xA0 else 0x80,
        if payload = 13 then 0x9F else 0xBF, payload⟩
  | four {payload : Nat} (hPayload : payload < 5) :
      Announces (0xF0 + payload) ⟨3, if payload = 0 then 0x90 else 0x80,
        if payload = 4 then 0x8F else 0xBF, payload⟩

theorem announces_of_lead? {byte : Nat} {lead : Lead} (hLead : lead? byte = some lead) :
    Announces byte lead := by
  by_cases hOne : byte < 0x80
  · rw [lead?, if_pos hOne] at hLead
    exact Option.some.inj hLead ▸ .one hOne
  by_cases hNone : byte < 0xC2
  · rw [lead?, if_neg hOne, if_pos hNone] at hLead
    cases hLead
  by_cases hTwo : byte < 0xE0
  · obtain ⟨payload, rfl⟩ := Nat.exists_eq_add_of_le (show 0xC0 ≤ byte by omega)
    rw [lead?_two (by omega) (by omega)] at hLead
    exact Option.some.inj hLead ▸ .two (by omega) (by omega)
  by_cases hThree : byte < 0xF0
  · obtain ⟨payload, rfl⟩ := Nat.exists_eq_add_of_le (show 0xE0 ≤ byte by omega)
    rw [lead?_three (by omega)] at hLead
    exact Option.some.inj hLead ▸ .three (by omega)
  by_cases hFour : byte < 0xF5
  · obtain ⟨payload, rfl⟩ := Nat.exists_eq_add_of_le (show 0xF0 ≤ byte by omega)
    rw [lead?_four (by omega)] at hLead
    exact Option.some.inj hLead ▸ .four (by omega)
  · have hBeyond : lead? byte = none := by
      rw [lead?, if_neg hOne, if_neg hNone, if_neg hTwo, if_neg (by simp; omega),
        if_neg (by simp; omega), if_neg hThree, if_neg (by simp; omega), if_neg (by omega),
        if_neg (by simp; omega)]
    rw [hBeyond] at hLead
    cases hLead

/-- A continuation byte that was read adds six bits to the code. -/
theorem exists_bits_of_tail {low high count code good final : Nat} {rest after : List UInt8}
    (hLow : 0x80 ≤ low)
    (hTail : tail low high (count + 1) code good rest = .complete final after) :
    ∃ bits others, low ≤ 0x80 + bits ∧ 0x80 + bits ≤ high ∧
      rest = (0x80 + bits).toUInt8 :: others ∧
      tail 0x80 0xBF count (code * 64 + bits) (good + 1) others = .complete final after := by
  cases rest with
  | nil =>
      rw [tail] at hTail
      cases hTail
  | cons byte others =>
      rw [tail] at hTail
      split at hTail
      · rename_i hBounds
        rw [Bool.and_eq_true, decide_eq_true_iff, decide_eq_true_iff] at hBounds
        obtain ⟨bits, hBits⟩ := Nat.exists_eq_add_of_le (Nat.le_trans hLow hBounds.1)
        rw [hBits] at hBounds hTail
        refine ⟨bits, others, hBounds.1, hBounds.2, ?_, ?_⟩
        · rw [← hBits, Nat.toUInt8, UInt8.ofNat_toNat]
        · rwa [Nat.add_sub_cancel_left] at hTail
      · cases hTail

theorem encodeCode_two {code : Nat} (hLow : 0x80 ≤ code) (hHigh : code < 0x800) :
    encodeCode code = [(0xC0 + code / 64).toUInt8, (0x80 + code % 64).toUInt8] := by
  rw [encodeCode, if_neg (by omega), if_pos hHigh]

theorem encodeCode_three {code : Nat} (hLow : 0x800 ≤ code) (hHigh : code < 0x10000) :
    encodeCode code = [(0xE0 + code / 4096).toUInt8, (0x80 + code / 64 % 64).toUInt8,
      (0x80 + code % 64).toUInt8] := by
  rw [encodeCode, if_neg (by omega), if_neg (by omega), if_pos hHigh]

theorem encodeCode_four {code : Nat} (hLow : 0x10000 ≤ code) :
    encodeCode code = [(0xF0 + code / 262144).toUInt8, (0x80 + code / 4096 % 64).toUInt8,
      (0x80 + code / 64 % 64).toUInt8, (0x80 + code % 64).toUInt8] := by
  rw [encodeCode, if_neg (by omega), if_neg (by omega), if_neg (by omega)]

/-- The bytes that were read as a character are those of the character. -/
theorem eq_encodeCode_of_tail {byte : UInt8} {lead : Lead} {rest after : List UInt8} {code : Nat}
    (hLead : lead? byte.toNat = some lead)
    (hTail : tail lead.low lead.high lead.continuation lead.payload 0 rest = .complete code after) :
    byte :: rest = encodeCode (Char.ofNat code).toNat ++ after := by
  have hByte : byte = byte.toNat.toUInt8 := by rw [Nat.toUInt8, UInt8.ofNat_toNat]
  generalize byte.toNat = number at hLead hByte
  subst hByte
  cases announces_of_lead? hLead with
  | one hSmall =>
      rw [tail_zero] at hTail
      cases hTail
      dsimp only
      rw [CodePoint.toNat_ofNat (by omega), encodeCode, if_pos hSmall, List.singleton_append]
  | @two payload hLow hHigh =>
      dsimp only at hTail
      obtain ⟨bits, _, hBits, hBits', rfl, hRest⟩ := exists_bits_of_tail (by omega) hTail
      rw [tail_zero] at hRest
      cases hRest
      have hPayload : (payload * 64 + bits) / 64 = payload := by omega
      have hLast : (payload * 64 + bits) % 64 = bits := by omega
      rw [CodePoint.toNat_ofNat (by omega), encodeCode_two (by omega) (by omega), hPayload, hLast]
      rfl
  | @three payload hSmall =>
      dsimp only at hTail
      obtain ⟨bits, _, hBits, hBits', rfl, hRest⟩ :=
        exists_bits_of_tail (by split <;> omega) hTail
      obtain ⟨last, _, hLast, hLast', rfl, hEnd⟩ := exists_bits_of_tail (by omega) hRest
      rw [tail_zero] at hEnd
      cases hEnd
      -- The bounds of the second byte keep short codes and halves out.
      have hCode : 0x800 ≤ (payload * 64 + bits) * 64 + last ∧
          ((payload * 64 + bits) * 64 + last < 0xD800 ∨
            0xDFFF < (payload * 64 + bits) * 64 + last) := by
        split at hBits <;> split at hBits' <;> omega
      have hBitsHigh : bits < 64 := by split at hBits' <;> omega
      have hPayload : ((payload * 64 + bits) * 64 + last) / 4096 = payload := by omega
      have hMiddle : ((payload * 64 + bits) * 64 + last) / 64 % 64 = bits := by omega
      have hLow : ((payload * 64 + bits) * 64 + last) % 64 = last := by omega
      rw [CodePoint.toNat_ofNat (by omega), encodeCode_three hCode.1 (by omega), hPayload, hMiddle,
        hLow]
      rfl
  | @four payload hSmall =>
      dsimp only at hTail
      obtain ⟨bits, _, hBits, hBits', rfl, hRest⟩ :=
        exists_bits_of_tail (by split <;> omega) hTail
      obtain ⟨third, _, hThird, hThird', rfl, hNext⟩ := exists_bits_of_tail (by omega) hRest
      obtain ⟨last, _, hLast, hLast', rfl, hEnd⟩ := exists_bits_of_tail (by omega) hNext
      rw [tail_zero] at hEnd
      cases hEnd
      have hCode : 0x10000 ≤ ((payload * 64 + bits) * 64 + third) * 64 + last ∧
          ((payload * 64 + bits) * 64 + third) * 64 + last < 0x110000 := by
        split at hBits <;> split at hBits' <;> omega
      have hBitsHigh : bits < 64 := by split at hBits' <;> omega
      have hPayload : (((payload * 64 + bits) * 64 + third) * 64 + last) / 262144 = payload := by
        omega
      have hSecond : (((payload * 64 + bits) * 64 + third) * 64 + last) / 4096 % 64 = bits := by
        omega
      have hMiddle : (((payload * 64 + bits) * 64 + third) * 64 + last) / 64 % 64 = third := by
        omega
      have hLow : (((payload * 64 + bits) * 64 + third) * 64 + last) % 64 = last := by omega
      rw [CodePoint.toNat_ofNat (by omega), encodeCode_four hCode.1, hPayload, hSecond, hMiddle,
        hLow]
      rfl

/-! ### Texts and their bytes as names -/

/-- The bytes of one code point of a name. -/
def pointBytes? : CodePoint → Option (List UInt8)
  | .char character => some (encodeCode character.toNat)
  | .half index => (nameByte? (.half index)).map fun byte => [byte]

/-- A text and its bytes as a name. -/
inductive Named : Text → List UInt8 → Prop
  | nil : Named [] []
  | cons {point : CodePoint} {rest : Text} {first others : List UInt8}
      (hPoint : pointBytes? point = some first) (hRest : Named rest others) :
      Named (point :: rest) (first ++ others)

theorem encodeWith_of_named {text : Text} {bytes : List UInt8} (hNamed : Named text bytes)
    (position : Nat) : encodeWith nameByte? position text = .ok bytes := by
  induction hNamed generalizing position with
  | nil => rfl
  | @cons point rest first others hPoint _ ih =>
      cases point with
      | char character =>
          cases hPoint
          rw [encodeWith, ih]
      | half index =>
          obtain ⟨byte, hByte, rfl⟩ := Option.map_eq_some_iff.mp hPoint
          rw [encodeWith, hByte]
          simp only [ih, List.singleton_append]

theorem named_of_encodeWith {text : Text} {bytes : List UInt8} {position : Nat}
    (hEncode : encodeWith nameByte? position text = .ok bytes) : Named text bytes := by
  induction text generalizing bytes position with
  | nil =>
      cases hEncode
      exact .nil
  | cons point rest ih =>
      cases point with
      | char character =>
          rw [encodeWith] at hEncode
          cases hRest : encodeWith nameByte? (position + 1) rest with
          | error fault =>
              rw [hRest] at hEncode
              cases hEncode
          | ok others =>
              rw [hRest] at hEncode
              cases hEncode
              exact .cons rfl (ih hRest)
      | half index =>
          rw [encodeWith] at hEncode
          cases hByte : nameByte? (.half index) with
          | none =>
              rw [hByte] at hEncode
              cases hEncode
          | some byte =>
              cases hRest : encodeWith nameByte? (position + 1) rest with
              | error fault =>
                  simp only [hByte, hRest] at hEncode
                  cases hEncode
              | ok others =>
                  simp only [hByte, hRest] at hEncode
                  cases hEncode
                  have hPoint : pointBytes? (.half index) = some [byte] := by
                    rw [pointBytes?, hByte]
                    rfl
                  exact .cons hPoint (ih hRest)

theorem encodeName_eq_ok_iff (text : Text) (bytes : List UInt8) :
    encodeName text = .ok bytes ↔ Named text bytes :=
  ⟨named_of_encodeWith, fun hNamed => encodeWith_of_named hNamed 0⟩

theorem Named.append {left right : Text} {first second : List UInt8} (hLeft : Named left first)
    (hRight : Named right second) : Named (left ++ right) (first ++ second) := by
  induction hLeft with
  | nil => exact hRight
  | cons hPoint _ ih =>
      rw [List.cons_append, List.append_assoc]
      exact .cons hPoint ih

theorem pointBytes?_ofCode {byte : UInt8} (hByte : 0x80 ≤ byte.toNat) :
    pointBytes? (.ofCode (0xDC00 + byte.toNat)) = some [byte] := by
  have hHigh : byte.toNat < 256 := byte.toNat_lt
  have hCode : 0xD800 + (0xDC00 + byte.toNat - 0xD800) = 0xDC00 + byte.toNat := by omega
  rw [CodePoint.ofCode, dif_pos (by omega), pointBytes?]
  simp only [nameByte?, CodePoint.code_half, hCode]
  rw [if_pos (by simp only [Bool.and_eq_true, decide_eq_true_iff]; omega), Nat.add_sub_cancel_left,
    Nat.toUInt8, UInt8.ofNat_toNat]
  rfl

/-- One code point is read from the bytes of a name, and no byte is lost. -/
theorem pointBytes?_namePoint (byte : UInt8) (rest : List UInt8) :
    ∃ first, pointBytes? (namePoint byte rest).1 = some first ∧
      byte :: rest = first ++ (namePoint byte rest).2 := by
  unfold namePoint
  cases hLead : lead? byte.toNat with
  | none =>
      refine ⟨[byte], pointBytes?_ofCode ?_, rfl⟩
      by_contra hSmall
      rw [lead?, if_pos (Nat.lt_of_not_le hSmall)] at hLead
      cases hLead
  | some lead =>
      dsimp only
      cases hTail : tail lead.low lead.high lead.continuation lead.payload 0 rest with
      | complete code after => exact ⟨_, rfl, eq_encodeCode_of_tail hLead hTail⟩
      -- A byte that stands for itself is never broken off, so this one has a half.
      | broken good reason =>
          refine ⟨[byte], pointBytes?_ofCode ?_, rfl⟩
          by_contra hSmall
          rw [lead?, if_pos (Nat.lt_of_not_le hSmall)] at hLead
          cases hLead
          rw [tail_zero] at hTail
          cases hTail

theorem pointBytes?_ne_nil {point : CodePoint} {first : List UInt8}
    (hPoint : pointBytes? point = some first) : first ≠ [] := by
  cases point with
  | char character =>
      cases hPoint
      obtain ⟨byte, after, _, hBytes, _⟩ := readAs_encodeCode character
      rw [hBytes]
      exact List.cons_ne_nil byte after
  | half index =>
      obtain ⟨byte, _, rfl⟩ := Option.map_eq_some_iff.mp hPoint
      exact List.cons_ne_nil byte []

theorem Named.eq_nil_iff {text : Text} {bytes : List UInt8} (hNamed : Named text bytes) :
    text = [] ↔ bytes = [] := by
  cases hNamed with
  | nil => exact ⟨fun _ => rfl, fun _ => rfl⟩
  | cons hPoint hRest =>
      refine ⟨nofun, fun hNil => ?_⟩
      exact absurd (List.append_eq_nil_iff.mp hNil).1 (pointBytes?_ne_nil hPoint)

theorem named_decodeNameFrom {bound : Nat} {bytes : List UInt8} (hBound : bytes.length < bound) :
    Named (decodeNameFrom bound bytes) bytes := by
  induction bound generalizing bytes with
  | zero => cases hBound
  | succ bound ih =>
      cases bytes with
      | nil => exact .nil
      | cons byte rest =>
          obtain ⟨first, hFirst, hBytes⟩ := pointBytes?_namePoint byte rest
          have hLength := congrArg List.length hBytes
          have hPositive := List.length_pos_of_ne_nil (pointBytes?_ne_nil hFirst)
          rw [List.length_cons] at hBound hLength
          rw [List.length_append] at hLength
          -- The first code point took a byte at least, which pays for the step.
          have hShorter : (namePoint byte rest).2.length < bound := by omega
          rw [decodeNameFrom, hBytes]
          exact .cons hFirst (ih hShorter)

/-- Every sequence of bytes is that of the text it is read as. -/
theorem named_decodeName (bytes : List UInt8) : Named (decodeName bytes) bytes :=
  named_decodeNameFrom (Nat.lt_succ_self _)

/-! ### Plain bytes -/

theorem le_of_mem_encodeCode {code : Nat} {byte : UInt8} (hCode : 0x80 ≤ code)
    (hLast : code < 0x110000) (hByte : byte ∈ encodeCode code) : 0x80 ≤ byte.toNat := by
  unfold encodeCode at hByte
  split at hByte
  · omega
  split at hByte
  · simp only [List.mem_cons, List.not_mem_nil, or_false] at hByte
    rcases hByte with rfl | rfl <;> rw [toNat_toUInt8 (by omega)] <;> omega
  split at hByte
  · simp only [List.mem_cons, List.not_mem_nil, or_false] at hByte
    rcases hByte with rfl | rfl | rfl <;> rw [toNat_toUInt8 (by omega)] <;> omega
  · simp only [List.mem_cons, List.not_mem_nil, or_false] at hByte
    rcases hByte with rfl | rfl | rfl | rfl <;> rw [toNat_toUInt8 (by omega)] <;> omega

theorem le_of_nameByte? {index : Fin 2048} {byte : UInt8}
    (hByte : nameByte? (.half index) = some byte) : 0x80 ≤ byte.toNat := by
  by_cases hBounds : (decide (0xDC80 ≤ (CodePoint.half index).code) &&
      decide ((CodePoint.half index).code ≤ 0xDCFF)) = true
  · have hHalf : nameByte? (.half index) = some ((CodePoint.half index).code - 0xDC00).toUInt8 :=
      if_pos hBounds
    rw [Bool.and_eq_true, decide_eq_true_iff, decide_eq_true_iff] at hBounds
    rw [hHalf] at hByte
    rw [← Option.some.inj hByte, toNat_toUInt8 (by omega)]
    omega
  · have hNone : nameByte? (.half index) = none := if_neg hBounds
    rw [hNone] at hByte
    cases hByte

/-- A byte below `0x80` stands for the character with its number and is no part of another. -/
theorem eq_of_plain_byte {point : CodePoint} {first : List UInt8} {byte : UInt8}
    (hPoint : pointBytes? point = some first) (hByte : byte ∈ first) (hPlain : byte.toNat < 0x80) :
    point = .char (Char.ofNat byte.toNat) ∧ first = [byte] := by
  cases point with
  | char character =>
      cases hPoint
      have hValid := CodePoint.char_valid character
      by_cases hSmall : character.toNat < 0x80
      · rw [encodeCode, if_pos hSmall, List.mem_singleton] at hByte
        subst hByte
        rw [toNat_toUInt8 (by omega), Char.ofNat_toNat, encodeCode, if_pos hSmall]
        exact ⟨rfl, rfl⟩
      · have hLarge := le_of_mem_encodeCode (by omega) (by omega) hByte
        omega
  | half index =>
      obtain ⟨found, hFound, rfl⟩ := Option.map_eq_some_iff.mp hPoint
      cases List.mem_singleton.mp hByte
      have hLarge := le_of_nameByte? hFound
      omega

end Utf8

/-! ### Paths and their bytes -/

namespace Storage

open Utf8 (Named pointBytes? pointBytes?_ne_nil eq_of_plain_byte)

/-- The byte of a slash. -/
def slash : UInt8 := 0x2F

theorem slash_cases {point : CodePoint} {first : List UInt8}
    (hPoint : pointBytes? point = some first) :
    point = .char '/' ∧ first = [slash] ∨ point ≠ .char '/' ∧ slash ∉ first := by
  by_cases hMember : slash ∈ first
  · exact .inl (eq_of_plain_byte hPoint hMember (by decide))
  · refine .inr ⟨?_, hMember⟩
    rintro rfl
    cases hPoint
    exact hMember (by decide)

theorem splitOnP_append {bytes : List UInt8} (hAbsent : slash ∉ bytes) (rest : List UInt8) :
    (bytes ++ rest).splitOnP (· == slash) =
      (rest.splitOnP (· == slash)).modifyHead (bytes ++ ·) := by
  induction bytes with
  | nil =>
      rw [List.nil_append]
      cases rest.splitOnP (· == slash) <;> rfl
  | cons byte others ih =>
      have hByte : byte ≠ slash := (List.ne_of_not_mem_cons hAbsent).symm
      rw [List.cons_append, List.splitOnP_cons_eq_if_modifyHead, if_neg (by simpa using hByte),
        ih (List.not_mem_of_not_mem_cons hAbsent)]
      cases rest.splitOnP (· == slash) <;> rfl

/-- Splitting a text at its slashes splits its bytes at theirs. -/
theorem named_splitOn {text : Text} {bytes : List UInt8} (hNamed : Named text bytes) :
    List.Forall₂ Named (Text.splitOn (.char '/') text) (bytes.splitOnP (· == slash)) := by
  induction hNamed with
  | nil => exact .cons .nil .nil
  | @cons point rest first others hPoint hRest ih =>
      rcases slash_cases hPoint with ⟨rfl, rfl⟩ | ⟨hOther, hAbsent⟩
      · rw [List.singleton_append, List.splitOnP_cons_eq_if_modifyHead, if_pos (by decide),
          Text.splitOn, if_pos (by decide)]
        exact .cons .nil ih
      · rw [splitOnP_append hAbsent, Text.splitOn, if_neg (by simpa using hOther)]
        have hSome := List.splitOnP_ne_nil (p := (· == slash)) others
        generalize others.splitOnP (· == slash) = names at ih hSome ⊢
        generalize Text.splitOn (.char '/') rest = parts at ih ⊢
        cases ih with
        | nil => exact absurd rfl hSome
        | cons hFirst hOthers => exact .cons (.cons hPoint hFirst) hOthers

theorem named_dot {text : Text} {bytes : List UInt8} (hNamed : Named text bytes) :
    text = [.char '.'] ↔ bytes = [0x2E] := by
  cases hNamed with
  | nil => exact ⟨nofun, nofun⟩
  | @cons point rest first others hPoint hRest =>
      constructor
      · intro hText
        obtain ⟨rfl, rfl⟩ := List.cons.inj hText
        rw [hRest.eq_nil_iff.mp rfl]
        cases hPoint
        rfl
      · intro hBytes
        obtain ⟨byte, behind, rfl⟩ := List.exists_cons_of_ne_nil (pointBytes?_ne_nil hPoint)
        obtain ⟨rfl, hBehind⟩ := List.cons.inj hBytes
        obtain ⟨rfl, hOthers⟩ := List.append_eq_nil_iff.mp hBehind
        rw [(eq_of_plain_byte hPoint List.mem_cons_self (by decide)).1,
          hRest.eq_nil_iff.mpr hOthers]
        rfl

/-- The names that count among those between slashes. -/
def nameComponents (bytes : List UInt8) : List Name :=
  (bytes.splitOnP (· == slash)).filter fun name => name != [] && name != [0x2E]

theorem named_components {text : Text} {bytes : List UInt8} (hNamed : Named text bytes) :
    List.Forall₂ Named (Path.components text) (nameComponents bytes) := by
  refine List.rel_filter ?_ (named_splitOn hNamed)
  intro part name hPart
  have hNil := hPart.eq_nil_iff
  have hDot := named_dot hPart
  have hWord : Text.ofString "." = [.char '.'] := rfl
  simp only [hWord, Bool.and_eq_true, bne_iff_ne, ne_eq, hNil, hDot]

theorem map_nameBytes {parts : List Text} {names : List Name}
    (hNamed : List.Forall₂ Named parts names) : parts.map nameBytes = names := by
  induction hNamed with
  | nil => rfl
  | cons hPart _ ih => rw [List.map_cons, ih, nameBytes, (Utf8.encodeName_eq_ok_iff _ _).mpr hPart]

theorem named_slash : Named [.char '/'] [slash] := by
  have hSlash : Named [.char '/'] ([slash] ++ []) := .cons rfl .nil
  exact hSlash

theorem named_join {parts : List Text} {names : List Name}
    (hNamed : List.Forall₂ Named parts names) :
    Named (Text.join "/" parts) ([slash].intercalate names) := by
  induction hNamed with
  | nil => exact .nil
  | @cons part name rest others hPart hRest ih =>
      cases hRest with
      | nil =>
          rw [Text.join, List.intercalate_singleton, List.intercalate_singleton]
          exact hPart
      | cons hNext hOthers =>
          rw [Text.join, List.intercalate_cons_cons, List.intercalate_cons_cons]
          exact (hPart.append named_slash).append ih

/-- The number of slashes in front decides where a path starts. -/
def anchorAfter : Nat → Anchor
  | 0 => .working
  | 2 => .doubleRoot
  | _ => .root

theorem anchorOf_eq (text : Text) :
    Path.anchorOf text = anchorAfter (text.takeWhile (· == .char '/')).length := by
  have hSlash : ∀ rest : Text, (CodePoint.char '/' :: rest).takeWhile (· == .char '/') =
      .char '/' :: rest.takeWhile (· == .char '/') :=
    fun _ => List.takeWhile_cons_of_pos (by decide)
  have hOther : ∀ {text : Text}, (∀ rest, text ≠ .char '/' :: rest) →
      text.takeWhile (· == .char '/') = [] := by
    intro text hFront
    cases text with
    | nil => rfl
    | cons point rest =>
        refine List.takeWhile_cons_of_neg ?_
        intro hSame
        exact hFront rest (by rw [beq_iff_eq.mp hSame])
  unfold Path.anchorOf
  split
  · rw [hSlash, hSlash, hSlash]
    rfl
  · rename_i rest hThird
    rw [hSlash, hSlash, hOther (fun other hSame => hThird other (by rw [hSame]))]
    rfl
  · rename_i rest hThird hSecond
    rw [hSlash, hOther (fun other hSame => hSecond other (by rw [hSame]))]
    rfl
  · rename_i hThird hSecond hFirst
    rw [hOther hFirst]
    rfl

theorem length_takeWhile_slash {text : Text} {bytes : List UInt8} (hNamed : Named text bytes) :
    (text.takeWhile (· == .char '/')).length = (bytes.takeWhile (· == slash)).length := by
  induction hNamed with
  | nil => rfl
  | @cons point rest first others hPoint _ ih =>
      rcases slash_cases hPoint with ⟨rfl, rfl⟩ | ⟨hOther, hAbsent⟩
      · rw [List.singleton_append, List.takeWhile_cons_of_pos (by decide),
          List.takeWhile_cons_of_pos (by decide), List.length_cons, List.length_cons, ih]
      · obtain ⟨byte, behind, rfl⟩ := List.exists_cons_of_ne_nil (pointBytes?_ne_nil hPoint)
        rw [List.cons_append, List.takeWhile_cons_of_neg (by simpa using hOther),
          List.takeWhile_cons_of_neg (by simpa using (List.ne_of_not_mem_cons hAbsent).symm)]
        rfl

/-- The bytes of a path that starts with a number of slashes. -/
def pathBytes : Nat → List Name → List UInt8
  | 0, names => if names.isEmpty then [0x2E] else [slash].intercalate names
  | 2, names => [slash, slash] ++ [slash].intercalate names
  | _, names => [slash] ++ [slash].intercalate names

theorem named_text (count : Nat) {parts : List Text} {names : List Name}
    (hNamed : List.Forall₂ Named parts names) :
    Named (Path.text ⟨anchorAfter count, parts⟩) (pathBytes count names) := by
  have hBody := named_join hNamed
  match count with
  | 0 =>
      cases hNamed with
      | nil =>
          have hDot : Named [.char '.'] ([0x2E] ++ []) := .cons rfl .nil
          exact hDot
      | cons hFirst hRest => exact hBody
  | 1 => exact named_slash.append hBody
  | 2 => exact (named_slash.append named_slash).append hBody
  | _ + 3 => exact named_slash.append hBody

theorem encodeName_text_ofText {text : Text} {bytes : List UInt8} (hNamed : Named text bytes) :
    Utf8.encodeName (Path.ofText text).text =
      .ok (pathBytes (bytes.takeWhile (· == slash)).length (nameComponents bytes)) := by
  rw [Utf8.encodeName_eq_ok_iff, Path.ofText, anchorOf_eq, length_takeWhile_slash hNamed]
  exact named_text _ (named_components hNamed)

/-- A path leads where its bytes lead. -/
theorem resolve_ofText_congr (storage : Storage) {left right : Text} {bytes : List UInt8}
    (hLeft : Named left bytes) (hRight : Named right bytes) :
    storage.resolve (.ofText left) = storage.resolve (.ofText right) := by
  have hAnchor : Path.anchorOf left = Path.anchorOf right := by
    rw [anchorOf_eq, anchorOf_eq, length_takeWhile_slash hLeft, length_takeWhile_slash hRight]
  have hNames : (Path.components left).map nameBytes = (Path.components right).map nameBytes := by
    rw [map_nameBytes (named_components hLeft), map_nameBytes (named_components hRight)]
  unfold resolve
  rw [encodeName_text_ofText hLeft, encodeName_text_ofText hRight]
  dsimp only [Path.ofText]
  rw [hAnchor, hNames]

end Storage

/-! ### Variables and their bytes -/

namespace Settings.Environment

theorem canonical_eq_ok_iff (text shown : Text) :
    canonical text = .ok shown ↔
      ∃ bytes, Utf8.Named text bytes ∧ shown = Utf8.decodeName bytes := by
  unfold canonical
  constructor
  · intro hShown
    cases hEncode : Utf8.encodeName text with
    | error fault =>
        rw [hEncode] at hShown
        cases hShown
    | ok bytes =>
        rw [hEncode] at hShown
        cases hShown
        exact ⟨bytes, (Utf8.encodeName_eq_ok_iff _ _).mp hEncode, rfl⟩
  · rintro ⟨bytes, hNamed, rfl⟩
    rw [(Utf8.encodeName_eq_ok_iff _ _).mpr hNamed]

/-- A variable that was set shows a text with the bytes of the text that it was set to. -/
theorem lookup_of_put {environment changed : Environment} {name value : Text}
    (hName : canonical name = .ok name) (hPut : environment.put name value = .ok changed) :
    ∃ bytes, Utf8.Named value bytes ∧ changed.lookup name = some (Utf8.decodeName bytes) := by
  unfold put at hPut
  rw [hName] at hPut
  cases hValue : canonical value with
  | error fault =>
      rw [hValue] at hPut
      cases hPut
  | ok shown =>
      obtain ⟨bytes, hNamed, rfl⟩ := (canonical_eq_ok_iff _ _).mp hValue
      refine ⟨bytes, hNamed, ?_⟩
      simp only [hValue] at hPut
      split at hPut
      · cases hPut
      split at hPut
      · cases hPut
      split at hPut
      · cases hPut
      · cases hPut
        exact List.lookup_cons_self

end Settings.Environment

end LogicSignature
