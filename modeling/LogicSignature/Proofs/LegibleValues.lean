import LogicSignature.Proofs.JsonRoundTrip
import LogicSignature.Proofs.WritableValues

/-
The values that JSON text holds. Whatever value a text of characters reads as is legible: an integer
has few enough digits, a real number is one of the format, a high half and a low half that are
escaped next to each other have become one character, and of two fields with one name only one is
left. With the round trip, the legible values are those that read back as themselves. Apart from the
number of digits they are the values of JSON.
-/

namespace LogicSignature

namespace CodePoint

theorem isHigh_char (character : Char) : isHigh (char character).code = false := by
  have hValid := char_valid character
  rw [Bool.eq_false_iff, ne_eq, isHigh_iff, code_char]
  omega

theorem isLow_char (character : Char) : isLow (char character).code = false := by
  have hValid := char_valid character
  rw [Bool.eq_false_iff, ne_eq, isLow_iff, code_char]
  omega

theorem code_ofCode {code : Nat} (hCode : code < 0x110000) : (ofCode code).code = code := by
  unfold ofCode
  split
  case isTrue hHalf =>
    change 0xD800 + (code - 0xD800) = code
    omega
  case isFalse hChar => rw [code_char, toNat_ofNat (by omega)]

theorem hexDigit?_lt {point : CodePoint} {digit : Nat} (hDigit : point.hexDigit? = some digit) :
    digit < 16 := by
  unfold hexDigit? at hDigit
  simp only [Bool.and_eq_true, decide_eq_true_iff] at hDigit
  split at hDigit
  · cases hDigit
    omega
  · split at hDigit
    · cases hDigit
      omega
    · split at hDigit
      · cases hDigit
        omega
      · cases hDigit

end CodePoint

/-- A text of characters, without halves. -/
def Text.IsUnicode (text : Text) : Prop :=
  ∀ point ∈ text, ∃ character, point = CodePoint.char character

theorem Text.IsUnicode.of_suffix {text rest : Text} (hText : text.IsUnicode)
    (hRest : rest <:+ text) : rest.IsUnicode :=
  fun point hMember => hText point (hRest.subset hMember)

theorem Text.IsUnicode.isJoined {text : Text} (hText : text.IsUnicode) : text.IsJoined := by
  induction text with
  | nil => exact .nil
  | cons point rest ih =>
      obtain ⟨character, rfl⟩ := hText point List.mem_cons_self
      refine List.isChain_cons.mpr ⟨fun next _ hHigh => ?_, ih ?_⟩
      · rw [CodePoint.isHigh_char] at hHigh
        cases hHigh
      · exact hText.of_suffix (List.suffix_cons _ _)

namespace Json

/-- A value of JSON, whatever the number of digits of its integers. -/
inductive Expressible : Value → Prop
  | null : Expressible .null
  | boolean (flag : Bool) : Expressible (.boolean flag)
  | integer (number : Int) : Expressible (.integer number)
  | real {number : Binary64} (hProper : number.IsProper) : Expressible (.real number)
  | text {content : Text} (hJoined : content.IsJoined) : Expressible (.text content)
  | list {items : List Value} (hItems : ∀ item ∈ items, Expressible item) :
      Expressible (.list items)
  | record {fields : List (Text × Value)} (hDistinct : (fields.map Prod.fst).Nodup)
      (hNames : ∀ entry ∈ fields, entry.1.IsJoined)
      (hValues : ∀ entry ∈ fields, Expressible entry.2) : Expressible (.record fields)

theorem Legible.expressible {item : Value} (hLegible : Legible item) : Expressible item := by
  induction hLegible with
  | null => exact .null
  | boolean flag => exact .boolean flag
  | integer _ => exact .integer _
  | real hProper => exact .real hProper
  | text hJoined => exact .text hJoined
  | list _ ih => exact .list ih
  | record hDistinct hNames _ ih => exact .record hDistinct hNames ih

theorem Legible.writable {item : Value} (hLegible : Legible item) : item.Writable := by
  induction hLegible with
  | null => exact .null
  | boolean flag => exact .boolean flag
  | integer hWritable => exact .integer hWritable
  | real _ => exact .real _
  | text _ => exact .text _
  | list _ ih => exact .list ih
  | record _ _ _ ih => exact .record ih

/-- Legible are the values of JSON that can be written. -/
theorem legible_iff {item : Value} : Legible item ↔ Expressible item ∧ item.Writable := by
  constructor
  · intro hLegible
    exact ⟨hLegible.expressible, hLegible.writable⟩
  · rintro ⟨hExpressible, hWritable⟩
    induction hExpressible with
    | null => exact .null
    | boolean flag => exact .boolean flag
    | integer number => exact .integer (Value.writable_integer_iff.mp hWritable)
    | real hProper => exact .real hProper
    | text hJoined => exact .text hJoined
    | list _ ih =>
        have hItems := Value.writable_list_iff.mp hWritable
        exact .list fun item hItem => ih item hItem (hItems item hItem)
    | record hDistinct hNames _ ih =>
        have hFields := Value.writable_record_iff.mp hWritable
        exact .record hDistinct hNames fun entry hEntry => ih entry hEntry (hFields entry hEntry)

/-! ### Numbers -/

section Numbers

variable {input rest : Text}

theorem ofDigits_lt {digits : Text} (hDigits : ∀ point ∈ digits, point.isAsciiDigit = true) :
    Numeral.ofDigits 10 (digitValues digits) < Nat.pow 10 digits.length := by
  induction digits using List.reverseRecOn with
  | nil => exact Nat.one_pos
  | append_singleton before last ih =>
      have hBefore := ih fun point hMember => hDigits point (List.mem_append_left _ hMember)
      have hLast := hDigits last List.mem_concat_self
      rw [CodePoint.isAsciiDigit, Bool.and_eq_true, decide_eq_true_iff, decide_eq_true_iff] at hLast
      rw [Numeral.ofDigits, digitValues, List.map_append, List.foldl_append, ← digitValues,
        ← Numeral.ofDigits, List.length_append]
      change 10 * Numeral.ofDigits 10 (digitValues before) + (last.code - 48) <
        Nat.pow 10 before.length * 10
      omega

theorem wholePart_spec {whole : Text} (hRead : wholePart input = some (whole, rest)) :
    (∀ point ∈ whole, point.isAsciiDigit = true) ∧ rest <:+ input := by
  cases input with
  | nil => cases hRead
  | cons first others =>
      by_cases hZero : first = .char '0'
      · subst hZero
        cases hRead
        exact ⟨by decide, List.suffix_cons _ _⟩
      · rw [wholePart] at hRead
        · split at hRead
          · cases hRead
            exact ⟨fun _ hMember => List.mem_takeWhile_imp hMember, List.dropWhile_suffix _⟩
          · cases hRead
        · exact hZero

theorem fractionPart_suffix (input : Text) :
    ((fractionPart input).getD ([], input)).2 <:+ input := by
  unfold fractionPart
  split
  · split
    · exact List.suffix_refl _
    · exact (List.dropWhile_suffix _).trans (List.suffix_cons _ _)
  · exact List.suffix_refl _

theorem takeSign_suffix (input : Text) : (Numeral.takeSign input).2 <:+ input := by
  unfold Numeral.takeSign
  split
  · exact List.suffix_cons _ _
  · exact List.suffix_cons _ _
  · exact List.suffix_refl _

theorem exponentPart_suffix (input : Text) :
    ((exponentPart input).getD (0, input)).2 <:+ input := by
  unfold exponentPart
  split
  · split
    · simp only
      split
      · exact List.suffix_refl _
      · exact (List.dropWhile_suffix _).trans
          ((takeSign_suffix _).trans (List.suffix_cons _ _))
    · exact List.suffix_refl _
  · exact List.suffix_refl _

theorem legible_integer {negative : Bool} {whole : Text}
    (hDigits : ∀ point ∈ whole, point.isAsciiDigit = true)
    (hLength : whole.length ≤ Numeral.digitLimit) :
    Legible (.integer (Binary64.signed negative (Numeral.ofDigits 10 (digitValues whole)))) := by
  apply Legible.integer
  unfold Numeral.isWritable Numeral.writableBound
  have hBound := ofDigits_lt hDigits
  have hGrows : ∀ limit, whole.length ≤ limit → Nat.pow 10 whole.length ≤ Nat.pow 10 limit :=
    fun limit hLimit => Nat.pow_le_pow_right (by decide) hLimit
  have hNumber : (Binary64.signed negative (Numeral.ofDigits 10 (digitValues whole))).natAbs =
      Numeral.ofDigits 10 (digitValues whole) := by
    unfold Binary64.signed
    cases negative <;> simp
  rw [decide_eq_true_iff, hNumber]
  exact Nat.lt_of_lt_of_le hBound (hGrows _ hLength)

theorem unsignedNumber_legible {negative : Bool} {item : Value}
    (hRead : unsignedNumber negative input = .ok (item, rest)) : Legible item ∧ rest <:+ input := by
  unfold unsignedNumber at hRead
  split at hRead
  case h_1 => cases hRead
  case h_2 whole afterWhole hWhole =>
    obtain ⟨hDigits, hAfter⟩ := wholePart_spec hWhole
    have hSuffix := (exponentPart_suffix _).trans ((fractionPart_suffix afterWhole).trans hAfter)
    simp only at hRead
    split at hRead
    · cases hRead
      exact ⟨.real (Binary64.isProper_ofDecimal _ _ _), hSuffix⟩
    · split at hRead
      · cases hRead
      · rename_i hLength
        cases hRead
        exact ⟨legible_integer hDigits (Nat.not_lt.mp hLength), hSuffix⟩

theorem number_legible {item : Value} (hRead : number input = .ok (item, rest)) :
    Legible item ∧ rest <:+ input := by
  unfold number at hRead
  simp only at hRead
  split at hRead
  case h_2 => cases hRead
  case h_1 result hResult =>
    split at hResult
    · cases hRead
      obtain ⟨hLegible, hSuffix⟩ := unsignedNumber_legible hResult
      exact ⟨hLegible, hSuffix.trans (List.suffix_cons _ _)⟩
    · cases hRead
      exact unsignedNumber_legible hResult

theorem legible_of_mem_words {entry : Text × Value} (hEntry : entry ∈ words) : Legible entry.2 := by
  simp only [words, List.mem_cons, List.not_mem_nil, or_false] at hEntry
  rcases hEntry with rfl | rfl | rfl | rfl | rfl | rfl
  · exact .null
  · exact .boolean true
  · exact .boolean false
  · exact .real trivial
  · exact .real trivial
  · exact .real trivial

theorem word?_legible {item : Value} (hRead : word? input = some (item, rest)) :
    Legible item ∧ rest <:+ input := by
  obtain ⟨⟨spelling, found⟩, hEntry, hFound⟩ := List.exists_of_findSome?_eq_some hRead
  simp only at hFound
  split at hFound
  · cases hFound
    exact ⟨legible_of_mem_words hEntry, List.drop_suffix _ _⟩
  · cases hFound

end Numbers

/-! ### Strings -/

/-- The escape of a low half comes next. -/
def LowAhead (input : Text) : Prop :=
  ∃ a b c d next rest unit,
    input = .char '\x5c' :: .char 'u' :: a :: b :: c :: d :: next :: rest ∧
      codeUnit? a b c d = some unit ∧ CodePoint.isLow unit = true

theorem codeUnit?_lt {a b c d : CodePoint} {unit : Nat} (hUnit : codeUnit? a b c d = some unit) :
    unit < 0x10000 := by
  simp only [codeUnit?, Option.bind_eq_bind, Option.bind_eq_some_iff] at hUnit
  obtain ⟨first, hFirst, second, hSecond, third, hThird, fourth, hFourth, hSame⟩ := hUnit
  cases hSame
  have hFirst := CodePoint.hexDigit?_lt hFirst
  have hSecond := CodePoint.hexDigit?_lt hSecond
  have hThird := CodePoint.hexDigit?_lt hThird
  have hFourth := CodePoint.hexDigit?_lt hFourth
  omega

/-- What one escape leaves: a high half stays only if no low half can join it, and a low half only
arises from an escape of its own. -/
structure Unescaped (input : Text) (point : CodePoint) (after : Text) : Prop where
  suffix : after <:+ input
  high_alone : CodePoint.isHigh point.code = true → ¬ LowAhead after
  low_ahead : CodePoint.isLow point.code = true → LowAhead (.char '\x5c' :: input)

theorem lowHalf_spec {high : Nat} (hHigh : CodePoint.isHigh high = true) {input after : Text}
    {point : CodePoint} (hRead : lowHalf high input = .ok (point, after)) :
    after <:+ input ∧ CodePoint.isLow point.code = false ∧
      (CodePoint.isHigh point.code = true → ¬ LowAhead after) := by
  have hRange := CodePoint.isHigh_iff.mp hHigh
  have hCode : (CodePoint.ofCode high).code = high := CodePoint.code_ofCode (by omega)
  unfold lowHalf at hRead
  split at hRead
  case h_1 a b c d next rest =>
    split at hRead
    case h_1 => cases hRead
    case h_2 low hUnit =>
      split at hRead
      case isTrue hLow =>
        rw [Except.ok.injEq, Prod.mk.injEq] at hRead
        obtain ⟨rfl, rfl⟩ := hRead
        have hRange := CodePoint.isLow_iff.mp hLow
        have hJoin :
            (CodePoint.ofCode (CodePoint.join high low)).code = CodePoint.join high low := by
          apply CodePoint.code_ofCode
          unfold CodePoint.join
          omega
        rw [hJoin, Bool.eq_false_iff, ne_eq, CodePoint.isLow_iff, CodePoint.isHigh_iff]
        unfold CodePoint.join
        exact ⟨⟨[.char '\x5c', .char 'u', a, b, c, d], rfl⟩, by omega, by omega⟩
      case isFalse hLow =>
        -- The escape ahead has been looked at and is not that of a low half.
        cases hRead
        refine ⟨List.suffix_refl _, by rw [hCode, isLow_of_isHigh hHigh], fun _ => ?_⟩
        rintro ⟨_, _, _, _, _, _, unit, ⟨rfl⟩, hAhead, hAheadLow⟩
        rw [hUnit] at hAhead
        cases hAhead
        exact hLow hAheadLow
  case h_2 hShape =>
    cases hRead
    refine ⟨List.suffix_refl _, by rw [hCode, isLow_of_isHigh hHigh], fun _ => ?_⟩
    rintro ⟨a, b, c, d, next, rest, unit, rfl, -⟩
    exact hShape a b c d next rest rfl

theorem codeEscape_spec {input after : Text} {point : CodePoint}
    (hRead : codeEscape input = .ok (point, after)) :
    Unescaped (.char 'u' :: input) point after := by
  unfold codeEscape at hRead
  split at hRead
  case h_2 => cases hRead
  case h_1 a b c d next rest =>
    split at hRead
    case h_1 => cases hRead
    case h_2 unit hUnit =>
      have hLess := codeUnit?_lt hUnit
      have hCode : (CodePoint.ofCode unit).code = unit := CodePoint.code_ofCode (by omega)
      have hSuffix : (next :: rest) <:+ .char 'u' :: a :: b :: c :: d :: next :: rest :=
        ⟨[.char 'u', a, b, c, d], rfl⟩
      split at hRead
      case isTrue hHigh =>
        obtain ⟨hAfter, hNotLow, hAlone⟩ := lowHalf_spec hHigh hRead
        exact ⟨hAfter.trans hSuffix, hAlone, fun hLow => absurd hLow (by rw [hNotLow]; decide)⟩
      case isFalse hHigh =>
        cases hRead
        rw [← hCode] at hHigh
        refine ⟨hSuffix, fun hAbsurd => absurd hAbsurd hHigh, fun hLow => ?_⟩
        rw [hCode] at hLow
        exact ⟨a, b, c, d, next, rest, unit, rfl, hUnit, hLow⟩

theorem letterEscape?_char {letter point : CodePoint}
    (hLetter : letterEscape? letter = some point) : ∃ character, point = .char character := by
  unfold letterEscape? at hLetter
  split at hLetter
  case isTrue hMark =>
    cases hLetter
    simp only [Bool.or_eq_true, beq_iff_eq] at hMark
    rcases hMark with (rfl | rfl) | rfl <;> exact ⟨_, rfl⟩
  case isFalse =>
    iterate 5
      split at hLetter
      next =>
        cases hLetter
        exact ⟨_, rfl⟩
    cases hLetter

theorem unescape_spec {opening : Nat} {input after : Text} {point : CodePoint}
    (hRead : unescape opening input = .ok (point, after)) : Unescaped input point after := by
  unfold unescape at hRead
  split at hRead
  case h_1 => cases hRead
  case h_2 => exact codeEscape_spec hRead
  case h_3 letter rest hNotUnit =>
    split at hRead
    case h_2 => cases hRead
    case h_1 letterPoint hLetter =>
      cases hRead
      obtain ⟨character, rfl⟩ := letterEscape?_char hLetter
      refine ⟨List.suffix_cons _ _, fun hHigh => ?_, fun hLow => ?_⟩
      · rw [CodePoint.isHigh_char] at hHigh
        cases hHigh
      · rw [CodePoint.isLow_char] at hLow
        cases hLow

/-- What has been read of a string, last point first, before the rest of the input: no high half
stands before a low half, and none is about to. -/
structure JoinedSoFar (done input : Text) : Prop where
  joined : Text.IsJoined done.reverse
  last_alone : ∀ point ∈ done.head?, CodePoint.isHigh point.code = true → ¬ LowAhead input

theorem JoinedSoFar.cons {done input after : Text} {point : CodePoint}
    (hDone : JoinedSoFar done input)
    (hLow : CodePoint.isLow point.code = true → LowAhead input)
    (hHigh : CodePoint.isHigh point.code = true → ¬ LowAhead after) :
    JoinedSoFar (point :: done) after := by
  constructor
  · rw [List.reverse_cons, Text.IsJoined, List.isChain_append]
    refine ⟨hDone.joined, .singleton _, ?_⟩
    intro last hLast next hNext hLastHigh
    rw [List.getLast?_reverse] at hLast
    cases hNext
    rw [Bool.eq_false_iff]
    exact fun hNextLow => hDone.last_alone last hLast hLastHigh (hLow hNextLow)
  · rintro last ⟨rfl⟩
    exact hHigh

theorem stringBody_joined {opening bound : Nat} {done input content rest : Text}
    (hInput : input.IsUnicode) (hDone : JoinedSoFar done input)
    (hRead : stringBody opening bound done input = .ok (content, rest)) :
    content.IsJoined ∧ rest <:+ input := by
  -- `JoinedSoFar` is what each point keeps. Only an escape can give a half: a character of the
  -- input neither waits for a low half nor is one.
  induction bound generalizing done input with
  | zero => cases hRead
  | succ bound ih =>
      cases input with
      | nil => cases hRead
      | cons point others =>
          have hOthers := List.suffix_cons point others
          rw [stringBody] at hRead
          split at hRead
          · cases hRead
            exact ⟨hDone.joined, hOthers⟩
          · split at hRead
            · rename_i hBackslash
              rw [beq_iff_eq] at hBackslash
              subst hBackslash
              split at hRead
              · cases hRead
              · rename_i unescaped after hEscape
                obtain ⟨hSuffix, hHigh, hLow⟩ := unescape_spec hEscape
                have hAfter := hSuffix.trans hOthers
                obtain ⟨hJoined, hRest⟩ :=
                  ih (hInput.of_suffix hAfter) (hDone.cons hLow hHigh) hRead
                exact ⟨hJoined, hRest.trans hAfter⟩
            · split at hRead
              · cases hRead
              · obtain ⟨character, rfl⟩ := hInput point List.mem_cons_self
                have hNext : JoinedSoFar (.char character :: done) others := by
                  apply hDone.cons
                  · rw [CodePoint.isLow_char]
                    exact fun hLow => by cases hLow
                  · rw [CodePoint.isHigh_char]
                    exact fun hHigh => by cases hHigh
                obtain ⟨hJoined, hRest⟩ := ih (hInput.of_suffix hOthers) hNext hRead
                exact ⟨hJoined, hRest.trans hOthers⟩

theorem string_joined {input content rest : Text} (hInput : input.IsUnicode)
    (hRead : string input = .ok (content, rest)) : content.IsJoined ∧ rest <:+ input := by
  have hNone : JoinedSoFar [] input := by
    constructor
    · exact List.IsChain.nil
    · intro point hPoint
      cases hPoint
  exact stringBody_joined hInput hNone hRead

/-! ### Values -/

/-- Up to a bound on the depth of calls, texts of characters read as legible values. The items and
fields that have been read already are legible, too. -/
structure ReadsLegibly (bound : Nat) : Prop where
  value : ∀ {input rest : Text} {item : Value}, input.IsUnicode →
    value bound input = .ok (item, rest) → Legible item ∧ rest <:+ input
  elements : ∀ {done : List Value} {input rest : Text} {item : Value},
    (∀ earlier ∈ done, Legible earlier) → input.IsUnicode →
    elements bound done input = .ok (item, rest) → Legible item ∧ rest <:+ input
  members : ∀ {done : List (Text × Value)} {input rest : Text} {item : Value},
    Legible (.record done) → input.IsUnicode →
    members bound done input = .ok (item, rest) → Legible item ∧ rest <:+ input

theorem skipBlanks_suffix (input : Text) : skipBlanks input <:+ input := List.dropWhile_suffix _

theorem suffix_of_skipBlanks {input rest : Text} {point : CodePoint}
    (hSkip : skipBlanks input = point :: rest) : rest <:+ input := by
  have hSuffix := skipBlanks_suffix input
  rw [hSkip] at hSuffix
  exact (List.suffix_cons _ _).trans hSuffix

theorem legible_no_fields : Legible (.record []) := by
  apply Legible.record
  · exact List.nodup_nil
  · exact List.forall_mem_nil _
  · exact List.forall_mem_nil _

theorem Legible.setEntry {fields : List (Text × Value)} (hFields : Legible (.record fields))
    {name : Text} (hName : name.IsJoined) {item : Value} (hItem : Legible item) :
    Legible (.record (Value.setEntry name item fields)) := by
  cases hFields with
  | record hDistinct hNames hValues =>
      apply Legible.record (Value.nodup_keys_setEntry hDistinct item)
      · intro entry hEntry
        rcases Value.mem_setEntry hEntry with rfl | hOld
        · exact hName
        · exact hNames entry hOld
      · intro entry hEntry
        rcases Value.mem_setEntry hEntry with rfl | hOld
        · exact hItem
        · exact hValues entry hOld

section Steps

variable {bound : Nat} (hBound : ReadsLegibly bound) {input rest : Text} {item : Value}
  (hInput : input.IsUnicode)

include hBound hInput

theorem ReadsLegibly.value_succ (hRead : Json.value (bound + 1) input = .ok (item, rest)) :
    Legible item ∧ rest <:+ input := by
  unfold Json.value at hRead
  split at hRead
  case h_1 body =>
    have hBody := List.suffix_cons (CodePoint.char '\x22') body
    split at hRead
    · cases hRead
    · rename_i content after hString
      cases hRead
      obtain ⟨hJoined, hAfter⟩ := string_joined (hInput.of_suffix hBody) hString
      exact ⟨.text hJoined, hAfter.trans hBody⟩
  case h_2 body =>
    have hBody := List.suffix_cons (CodePoint.char '\x7b') body
    split at hRead
    · rename_i after hSkip
      cases hRead
      exact ⟨legible_no_fields, (suffix_of_skipBlanks hSkip).trans hBody⟩
    · have hSkip := (skipBlanks_suffix body).trans hBody
      obtain ⟨hLegible, hRest⟩ := hBound.members legible_no_fields (hInput.of_suffix hSkip) hRead
      exact ⟨hLegible, hRest.trans hSkip⟩
  case h_3 body =>
    have hBody := List.suffix_cons (CodePoint.char '[') body
    have hNone : ∀ earlier ∈ ([] : List Value), Legible earlier := List.forall_mem_nil _
    split at hRead
    · rename_i after hSkip
      cases hRead
      exact ⟨.list hNone, (suffix_of_skipBlanks hSkip).trans hBody⟩
    · have hSkip := (skipBlanks_suffix body).trans hBody
      obtain ⟨hLegible, hRest⟩ := hBound.elements hNone (hInput.of_suffix hSkip) hRead
      exact ⟨hLegible, hRest.trans hSkip⟩
  case h_4 =>
    split at hRead
    · rename_i hWord
      cases hRead
      exact word?_legible hWord
    · exact number_legible hRead

theorem ReadsLegibly.elements_succ {done : List Value} (hDone : ∀ earlier ∈ done, Legible earlier)
    (hRead : Json.elements (bound + 1) done input = .ok (item, rest)) :
    Legible item ∧ rest <:+ input := by
  unfold Json.elements at hRead
  split at hRead
  case h_1 => cases hRead
  case h_2 first after hFirst =>
    obtain ⟨hLegible, hAfter⟩ := hBound.value hInput hFirst
    have hMore : ∀ earlier ∈ first :: done, Legible earlier := by
      intro earlier hMember
      rcases List.mem_cons.mp hMember with rfl | hOld
      · exact hLegible
      · exact hDone earlier hOld
    split at hRead
    · rename_i behind hSkip
      cases hRead
      refine ⟨.list fun earlier hMember => hMore earlier (List.mem_reverse.mp hMember), ?_⟩
      exact (suffix_of_skipBlanks hSkip).trans hAfter
    · rename_i behind hSkip
      have hNext := ((skipBlanks_suffix behind).trans (suffix_of_skipBlanks hSkip)).trans hAfter
      obtain ⟨hLegible, hRest⟩ := hBound.elements hMore (hInput.of_suffix hNext) hRead
      exact ⟨hLegible, hRest.trans hNext⟩
    · cases hRead

theorem ReadsLegibly.members_succ {done : List (Text × Value)} (hDone : Legible (.record done))
    (hRead : Json.members (bound + 1) done input = .ok (item, rest)) :
    Legible item ∧ rest <:+ input := by
  unfold Json.members at hRead
  split at hRead
  case h_2 => cases hRead
  case h_1 inString =>
    have hInString := List.suffix_cons (CodePoint.char '\x22') inString
    split at hRead
    case h_1 => cases hRead
    case h_2 name afterName hString =>
      obtain ⟨hName, hAfterName⟩ := string_joined (hInput.of_suffix hInString) hString
      split at hRead
      case h_2 => cases hRead
      case h_1 afterColon hColon =>
        have hValueText :=
          ((skipBlanks_suffix afterColon).trans (suffix_of_skipBlanks hColon)).trans
            (hAfterName.trans hInString)
        split at hRead
        case h_1 => cases hRead
        case h_2 found after hFound =>
          obtain ⟨hLegible, hAfter⟩ := hBound.value (hInput.of_suffix hValueText) hFound
          have hFields := hDone.setEntry hName hLegible
          have hAfter := hAfter.trans hValueText
          simp only at hRead
          split at hRead
          · rename_i behind hSkip
            cases hRead
            exact ⟨hFields, (suffix_of_skipBlanks hSkip).trans hAfter⟩
          · rename_i behind hSkip
            have hNext :=
              ((skipBlanks_suffix behind).trans (suffix_of_skipBlanks hSkip)).trans hAfter
            obtain ⟨hLegible, hRest⟩ := hBound.members hFields (hInput.of_suffix hNext) hRead
            exact ⟨hLegible, hRest.trans hNext⟩
          · cases hRead

end Steps

theorem readsLegibly (bound : Nat) : ReadsLegibly bound := by
  induction bound with
  | zero =>
      constructor
      · intro input rest item _ hRead
        cases hRead
      · intro done input rest item _ _ hRead
        cases hRead
      · intro done input rest item _ _ hRead
        cases hRead
  | succ bound ih =>
      constructor
      · intro input rest item hInput hRead
        exact ih.value_succ hInput hRead
      · intro done input rest item hDone hInput hRead
        exact ih.elements_succ hInput hDone hRead
      · intro done input rest item hDone hInput hRead
        exact ih.members_succ hInput hDone hRead

theorem legible_of_parse {input : Text} (hInput : input.IsUnicode) {item : Value}
    (hRead : parse input = .ok item) : Legible item := by
  unfold parse at hRead
  split at hRead
  case h_2 => cases hRead
  case h_1 result hDocument =>
    cases hRead
    unfold document at hDocument
    split at hDocument
    case h_1 => cases hDocument
    case h_2 =>
      split at hDocument
      case h_1 => cases hDocument
      case h_2 found after hFound =>
        split at hDocument
        case h_2 => cases hDocument
        case h_1 =>
          cases hDocument
          exact ((readsLegibly _).value (hInput.of_suffix (skipBlanks_suffix input)) hFound).1

end Json

end LogicSignature
