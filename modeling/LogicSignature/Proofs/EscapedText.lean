import Mathlib.Data.List.Chain
import LogicSignature.Json.Reader
import LogicSignature.Json.Writer
import LogicSignature.Proofs.HexText

/-
Strings in JSON text. Every code point has one escape, and an escape reads back as its code point,
with one exception: the escapes of a high half and of a low half directly behind it read as the one
character that both stand for.
-/

namespace LogicSignature

namespace CodePoint

theorem code_lt (point : CodePoint) : point.code < 0x110000 := by
  cases point with
  | char character =>
      have hValid := char_valid character
      rw [code_char]
      omega
  | half index =>
      rw [code_half]
      omega

theorem isHigh_iff {code : Nat} : isHigh code = true ↔ 0xD800 ≤ code ∧ code ≤ 0xDBFF := by
  rw [isHigh, Bool.and_eq_true, decide_eq_true_iff, decide_eq_true_iff]

theorem isLow_iff {code : Nat} : isLow code = true ↔ 0xDC00 ≤ code ∧ code ≤ 0xDFFF := by
  rw [isLow, Bool.and_eq_true, decide_eq_true_iff, decide_eq_true_iff]

end CodePoint

namespace Json

/-! ### Escapes -/

theorem exists_unitDigits {unit : Nat} (hUnit : unit < 0x10000) :
    ∃ a b c d : Nat, a < 16 ∧ b < 16 ∧ c < 16 ∧ d < 16 ∧
      unit = ((a * 16 + b) * 16 + c) * 16 + d ∧
      Text.hex 4 unit = [.char (Nat.digitChar a), .char (Nat.digitChar b), .char (Nat.digitChar c),
        .char (Nat.digitChar d)] := by
  refine ⟨unit / 16 / 16 / 16, unit / 16 / 16 % 16, unit / 16 % 16, unit % 16, by omega, by omega,
    by omega, by omega, by omega, ?_⟩
  rw [Text.hex]
  -- The digits are as many as the number needs, and zeros fill the places before them.
  by_cases hOne : unit < 16
  · rw [Nat.toDigits_of_lt_base hOne, Nat.mod_eq_of_lt hOne, Nat.div_eq_of_lt hOne]
    rfl
  · rw [Nat.toDigits_of_base_le (by decide) (by omega)]
    by_cases hTwo : unit / 16 < 16
    · rw [Nat.toDigits_of_lt_base hTwo, Nat.mod_eq_of_lt hTwo, Nat.div_eq_of_lt hTwo]
      rfl
    · rw [Nat.toDigits_of_base_le (by decide) (by omega)]
      by_cases hThree : unit / 16 / 16 < 16
      · rw [Nat.toDigits_of_lt_base hThree, Nat.mod_eq_of_lt hThree, Nat.div_eq_of_lt hThree]
        rfl
      · rw [Nat.toDigits_of_base_le (by decide) (by omega), Nat.toDigits_of_lt_base (by omega)]
        rfl

/-- The ways in which a code point is written between quotes. -/
inductive Escape (point : CodePoint) : Text → Prop
  | plain (hLow : 32 ≤ point.code) (hHigh : point.code ≤ 126) (hQuote : point ≠ .char '\x22')
      (hBackslash : point ≠ .char '\x5c') : Escape point [point]
  | letter {letter : CodePoint} (hLetter : letterEscape? letter = some point)
      (hPrintable : 32 ≤ letter.code ∧ letter.code ≤ 126) : Escape point [.char '\x5c', letter]
  | unit (hCode : point.code < 0x10000) : Escape point (codeUnitEscape point.code)
  | pair {high low : Nat} (hHigh : CodePoint.isHigh high = true) (hLow : CodePoint.isLow low = true)
      (hJoin : point.code = CodePoint.join high low) :
      Escape point (codeUnitEscape high ++ codeUnitEscape low)

theorem escape_escapePoint (point : CodePoint) : Escape point (escapePoint point) := by
  have hBound := point.code_lt
  unfold escapePoint
  split
  case isTrue hMark =>
    rw [Bool.or_eq_true, beq_iff_eq, beq_iff_eq] at hMark
    rcases hMark with rfl | rfl
    · exact .letter rfl (by decide)
    · exact .letter rfl (by decide)
  case isFalse hMark =>
    rw [Bool.or_eq_true, beq_iff_eq, beq_iff_eq, not_or] at hMark
    split
    case isTrue hPlain =>
      rw [Bool.and_eq_true, decide_eq_true_iff, decide_eq_true_iff] at hPlain
      exact .plain hPlain.1 hPlain.2 hMark.1 hMark.2
    case isFalse =>
      iterate 5
        split
        next hLetter =>
          rw [beq_iff_eq.mp hLetter]
          exact .letter rfl (by decide)
      unfold codeUnits
      split
      case isTrue hCode =>
        rw [List.flatMap_singleton]
        exact .unit hCode
      case isFalse hCode =>
        have hHigh : CodePoint.isHigh (0xD800 + (point.code - 0x10000) / 0x400) = true :=
          CodePoint.isHigh_iff.mpr (by omega)
        have hLow : CodePoint.isLow (0xDC00 + (point.code - 0x10000) % 0x400) = true :=
          CodePoint.isLow_iff.mpr (by omega)
        have hJoin : point.code = CodePoint.join (0xD800 + (point.code - 0x10000) / 0x400)
            (0xDC00 + (point.code - 0x10000) % 0x400) := by
          unfold CodePoint.join
          omega
        rw [List.flatMap_cons, List.flatMap_singleton]
        exact .pair hHigh hLow hJoin

theorem exists_codeUnitEscape {unit : Nat} (hUnit : unit < 0x10000) :
    ∃ a b c d, codeUnitEscape unit = [.char '\x5c', .char 'u', a, b, c, d] ∧
      codeUnit? a b c d = some unit := by
  obtain ⟨a, b, c, d, hA, hB, hC, hD, hValue, hDigits⟩ := exists_unitDigits hUnit
  refine ⟨.char (Nat.digitChar a), .char (Nat.digitChar b), .char (Nat.digitChar c),
    .char (Nat.digitChar d), ?_, ?_⟩
  · rw [codeUnitEscape, hDigits]
    rfl
  · rw [codeUnit?, Hex.hexDigit?_digitChar a hA, Hex.hexDigit?_digitChar b hB,
      Hex.hexDigit?_digitChar c hC, Hex.hexDigit?_digitChar d hD, hValue]
    rfl

theorem Escape.ne_nil {point : CodePoint} {text : Text} (hEscape : Escape point text) :
    text ≠ [] := by
  cases hEscape with
  | plain => exact List.cons_ne_nil _ _
  | letter => exact List.cons_ne_nil _ _
  | unit => exact List.cons_ne_nil _ _
  | pair => exact List.cons_ne_nil _ _

/-! ### Reading an escape -/

theorem unescape_letter {letter point : CodePoint} (hLetter : letterEscape? letter = some point)
    (opening : Nat) (rest : Text) : unescape opening (letter :: rest) = .ok (point, rest) := by
  rw [unescape, hLetter]
  rintro rfl
  cases hLetter

section Units

variable {a b c d next : CodePoint} {unit high : Nat} (hUnit : codeUnit? a b c d = some unit)
  (rest : Text)

include hUnit

theorem codeEscape_of_not_high (hHigh : CodePoint.isHigh unit = false) :
    codeEscape (a :: b :: c :: d :: next :: rest) = .ok (.ofCode unit, next :: rest) := by
  rw [codeEscape, hUnit]
  simp only [hHigh, Bool.false_eq_true, if_false]

theorem codeEscape_of_high (hHigh : CodePoint.isHigh unit = true) :
    codeEscape (a :: b :: c :: d :: next :: rest) = lowHalf unit (next :: rest) := by
  rw [codeEscape, hUnit]
  simp only [hHigh, if_true]

theorem lowHalf_of_low (hLow : CodePoint.isLow unit = true) :
    lowHalf high (.char '\x5c' :: .char 'u' :: a :: b :: c :: d :: next :: rest) =
      .ok (.ofCode (CodePoint.join high unit), next :: rest) := by
  rw [lowHalf, hUnit]
  simp only [hLow, if_true]

theorem lowHalf_of_not_low (hLow : CodePoint.isLow unit = false) :
    lowHalf high (.char '\x5c' :: .char 'u' :: a :: b :: c :: d :: next :: rest) =
      .ok (.ofCode high, .char '\x5c' :: .char 'u' :: a :: b :: c :: d :: next :: rest) := by
  rw [lowHalf, hUnit]
  simp only [hLow, Bool.false_eq_true, if_false]

end Units

theorem lt_of_isHigh {unit : Nat} (hHigh : CodePoint.isHigh unit = true) : unit < 0x10000 := by
  rw [CodePoint.isHigh_iff] at hHigh
  omega

theorem lt_of_isLow {unit : Nat} (hLow : CodePoint.isLow unit = true) : unit < 0x10000 := by
  rw [CodePoint.isLow_iff] at hLow
  omega

theorem isLow_of_isHigh {unit : Nat} (hHigh : CodePoint.isHigh unit = true) :
    CodePoint.isLow unit = false := by
  rw [CodePoint.isHigh_iff] at hHigh
  rw [Bool.eq_false_iff, ne_eq, CodePoint.isLow_iff]
  omega

/-- A high half stays alone before the escape of anything but a low half. -/
theorem lowHalf_escapePoint (high : Nat) {point : CodePoint}
    (hPoint : CodePoint.isLow point.code = false) {tail : Text} (hTail : tail ≠ []) :
    lowHalf high (escapePoint point ++ tail) = .ok (.ofCode high, escapePoint point ++ tail) := by
  obtain ⟨next, rest, rfl⟩ := List.exists_cons_of_ne_nil hTail
  have hEscape := escape_escapePoint point
  generalize escapePoint point = text at hEscape
  cases hEscape with
  | plain hLow hHigh hQuote hBackslash =>
      rw [List.singleton_append, lowHalf]
      rintro a b c d next rest ⟨rfl⟩
      exact hBackslash rfl
  | @letter letter hLetter hPrintable =>
      rw [List.cons_append, List.singleton_append, lowHalf]
      rintro a b c d next rest ⟨rfl⟩
      cases hLetter
  | unit hCode =>
      obtain ⟨a, b, c, d, hText, hUnit⟩ := exists_codeUnitEscape hCode
      rw [hText]
      exact lowHalf_of_not_low hUnit rest hPoint
  | @pair first second hHigh hLow hJoin =>
      obtain ⟨a, b, c, d, hText, hUnit⟩ := exists_codeUnitEscape (lt_of_isHigh hHigh)
      obtain ⟨e, f, g, h, hText', hUnit'⟩ := exists_codeUnitEscape (lt_of_isLow hLow)
      rw [hText, hText']
      exact lowHalf_of_not_low hUnit _ (isLow_of_isHigh hHigh)

end Json

/-- No high half stands directly before a low half. -/
def Text.IsJoined (text : Text) : Prop :=
  text.IsChain fun point next => CodePoint.isHigh point.code = true →
    CodePoint.isLow next.code = false

instance (text : Text) : Decidable text.IsJoined :=
  inferInstanceAs (Decidable (text.IsChain _))

namespace Json

/-! ### Reading a string -/

section Strings

variable (opening bound : Nat) (done : Text) {point : CodePoint} {tail : Text}

theorem stringBody_unescape {input : Text} (hRead : unescape opening input = .ok (point, tail)) :
    stringBody opening (bound + 1) done (.char '\x5c' :: input) =
      stringBody opening bound (point :: done) tail := by
  rw [stringBody, if_neg (by decide), if_pos (by decide), hRead]

theorem stringBody_escapePoint (hTail : tail ≠ [])
    (hAlone : CodePoint.isHigh point.code = true → lowHalf point.code tail = .ok (point, tail)) :
    stringBody opening (bound + 1) done (escapePoint point ++ tail) =
      stringBody opening bound (point :: done) tail := by
  obtain ⟨next, rest, rfl⟩ := List.exists_cons_of_ne_nil hTail
  have hEscape := escape_escapePoint point
  generalize escapePoint point = text at hEscape
  cases hEscape with
  | plain hLow hHigh hQuote hBackslash =>
      rw [List.singleton_append, stringBody, if_neg (by simpa using hQuote),
        if_neg (by simpa using hBackslash), if_neg (by omega)]
  | @letter letter hLetter hPrintable =>
      exact stringBody_unescape opening bound done (unescape_letter hLetter opening (next :: rest))
  | unit hCode =>
      obtain ⟨a, b, c, d, hText, hUnit⟩ := exists_codeUnitEscape hCode
      rw [hText]
      apply stringBody_unescape
      change codeEscape (a :: b :: c :: d :: next :: rest) = _
      cases hHigh : CodePoint.isHigh point.code with
      | true => rw [codeEscape_of_high hUnit rest hHigh, hAlone hHigh]
      | false => rw [codeEscape_of_not_high hUnit rest hHigh, CodePoint.ofCode_code]
  | @pair first second hHigh hLow hJoin =>
      obtain ⟨a, b, c, d, hText, hUnit⟩ := exists_codeUnitEscape (lt_of_isHigh hHigh)
      obtain ⟨e, f, g, h, hText', hUnit'⟩ := exists_codeUnitEscape (lt_of_isLow hLow)
      rw [hText, hText']
      apply stringBody_unescape
      change codeEscape (a :: b :: c :: d :: .char '\x5c' ::
        (.char 'u' :: e :: f :: g :: h :: next :: rest)) = _
      rw [codeEscape_of_high hUnit _ hHigh, lowHalf_of_low hUnit' rest hLow, ← hJoin,
        CodePoint.ofCode_code]

theorem stringBody_escapes {content : Text} (hJoined : content.IsJoined) (after : Text)
    (hBound : content.length < bound) :
    stringBody opening bound done (content.flatMap escapePoint ++ .char '\x22' :: after) =
      .ok (done.reverse ++ content, after) := by
  induction content generalizing bound done with
  | nil =>
      obtain ⟨bound, rfl⟩ := Nat.exists_eq_add_of_lt hBound
      rw [List.append_nil]
      rfl
  | cons point rest ih =>
      obtain ⟨hNext, hRest⟩ := List.isChain_cons.mp hJoined
      obtain ⟨bound, rfl⟩ : ∃ fewer, bound = fewer + 1 := ⟨bound - 1, by omega⟩
      rw [List.flatMap_cons, List.append_assoc, stringBody_escapePoint, ih _ _ hRest,
        List.reverse_cons, List.append_assoc, List.singleton_append]
      · rw [List.length_cons] at hBound
        omega
      · exact List.append_ne_nil_of_right_ne_nil _ (List.cons_ne_nil _ _)
      · intro hHigh
        cases rest with
        | nil =>
            change Except.ok (CodePoint.ofCode point.code, _) = _
            rw [CodePoint.ofCode_code]
        | cons next others =>
            rw [List.flatMap_cons, List.append_assoc, lowHalf_escapePoint _ (hNext next rfl hHigh),
              CodePoint.ofCode_code]
            exact List.append_ne_nil_of_right_ne_nil _ (List.cons_ne_nil _ _)

theorem length_le_escapes (content : Text) :
    content.length ≤ (content.flatMap escapePoint).length := by
  induction content with
  | nil => exact Nat.le_refl _
  | cons point rest ih =>
      have hSome := List.length_pos_of_ne_nil (escape_escapePoint point).ne_nil
      rw [List.flatMap_cons, List.length_append, List.length_cons]
      omega

theorem string_escapes {content : Text} (hJoined : content.IsJoined) (after : Text) :
    string (content.flatMap escapePoint ++ .char '\x22' :: after) = .ok (content, after) := by
  have hLength := length_le_escapes content
  rw [string, stringBody_escapes _ _ _ hJoined]
  · rfl
  · rw [List.length_append]
    omega

end Strings

end Json

end LogicSignature
