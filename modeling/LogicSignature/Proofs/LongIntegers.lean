import LogicSignature.Proofs.LegibleValues

/-
Integers with too many digits.

Reading JSON text has one fault that is no fault of the text: an integer with more digits than are
read. It is met only where so many digits stand next to each other, whatever is around them, so a
text without such a run is either read or refused at a place.
-/

namespace LogicSignature

/-- A text with an integer that is too long to be read: so many digits, next to each other. -/
def Text.HasLongInteger (count : Nat) (text : Text) : Prop :=
  ∃ before digits after, text = before ++ digits ++ after ∧ digits.length = count ∧
    Numeral.digitLimit < count ∧ ∀ point ∈ digits, point.isAsciiDigit = true

theorem Text.HasLongInteger.of_suffix {count : Nat} {text rest : Text}
    (hRest : rest.HasLongInteger count) (hSuffix : rest <:+ text) : text.HasLongInteger count := by
  obtain ⟨front, rfl⟩ := hSuffix
  obtain ⟨before, digits, after, rfl, hDigits⟩ := hRest
  refine ⟨front ++ before, digits, after, ?_, hDigits⟩
  simp only [List.append_assoc]

namespace Json

/-! ### Numbers -/

section Numbers

variable {input rest : Text} {count : Nat}

theorem eq_append_of_wholePart {whole : Text} (hRead : wholePart input = some (whole, rest)) :
    input = whole ++ rest := by
  cases input with
  | nil => cases hRead
  | cons first others =>
      by_cases hZero : first = .char '0'
      · subst hZero
        cases hRead
        rfl
      · rw [wholePart] at hRead
        · split at hRead
          · cases hRead
            exact List.takeWhile_append_dropWhile.symm
          · cases hRead
        · exact hZero

theorem hasLongInteger_of_unsignedNumber {negative : Bool}
    (hRead : unsignedNumber negative input = .error (.tooManyDigits count)) :
    input.HasLongInteger count := by
  unfold unsignedNumber at hRead
  split at hRead
  case h_1 => cases hRead
  case h_2 whole afterWhole hWhole =>
    simp only at hRead
    split at hRead
    · cases hRead
    · split at hRead
      · rename_i hLength
        cases hRead
        exact ⟨[], whole, afterWhole, eq_append_of_wholePart hWhole, rfl, hLength,
          (wholePart_spec hWhole).1⟩
      · cases hRead

theorem hasLongInteger_of_number {stop : Stop} (hRead : number input = .error stop)
    (hStop : stop.problem = .tooManyDigits count) : input.HasLongInteger count := by
  unfold number at hRead
  simp only at hRead
  split at hRead
  case h_1 => cases hRead
  case h_2 problem hProblem =>
    cases hRead
    obtain rfl : problem = .tooManyDigits count := hStop
    split at hProblem
    · exact (hasLongInteger_of_unsignedNumber hProblem).of_suffix (List.suffix_cons _ _)
    · exact hasLongInteger_of_unsignedNumber hProblem

end Numbers

/-! ### Strings -/

/-- Whether a problem is one of the text, and not the number of digits. -/
def Problem.isOfText : Problem → Bool
  | .tooManyDigits _ => false
  | _ => true

theorem isOfText_of_lowHalf {high : Nat} {input : Text} {stop : Stop}
    (hRead : lowHalf high input = .error stop) : stop.problem.isOfText = true := by
  unfold lowHalf at hRead
  split at hRead
  · split at hRead
    · cases hRead
      rfl
    · split at hRead <;> cases hRead
  · cases hRead

theorem isOfText_of_codeEscape {input : Text} {stop : Stop}
    (hRead : codeEscape input = .error stop) : stop.problem.isOfText = true := by
  unfold codeEscape at hRead
  split at hRead
  · split at hRead
    · cases hRead
      rfl
    · split at hRead
      · exact isOfText_of_lowHalf hRead
      · cases hRead
  · cases hRead
    rfl

theorem isOfText_of_unescape {opening : Nat} {input : Text} {stop : Stop}
    (hRead : unescape opening input = .error stop) : stop.problem.isOfText = true := by
  unfold unescape at hRead
  split at hRead
  · cases hRead
    rfl
  · exact isOfText_of_codeEscape hRead
  · split at hRead
    · cases hRead
    · cases hRead
      rfl

theorem isOfText_of_stringBody {opening bound : Nat} {done input : Text} {stop : Stop}
    (hRead : stringBody opening bound done input = .error stop) : stop.problem.isOfText = true := by
  induction bound generalizing done input with
  | zero =>
      cases hRead
      rfl
  | succ bound ih =>
      cases input with
      | nil =>
          cases hRead
          rfl
      | cons point others =>
          rw [stringBody] at hRead
          split at hRead
          · cases hRead
          · split at hRead
            · split at hRead
              · rename_i hEscape
                cases hRead
                exact isOfText_of_unescape hEscape
              · exact ih hRead
            · split at hRead
              · cases hRead
                rfl
              · exact ih hRead

/-! ### Values -/

/-- Up to a bound on the depth of calls, reading stops for the number of digits only if there are so
many. -/
structure StopsAtIntegers (bound : Nat) : Prop where
  value : ∀ {input : Text} {stop : Stop} {count : Nat}, input.IsUnicode →
    Json.value bound input = .error stop → stop.problem = .tooManyDigits count →
      input.HasLongInteger count
  elements : ∀ {done : List Value} {input : Text} {stop : Stop} {count : Nat}, input.IsUnicode →
    Json.elements bound done input = .error stop → stop.problem = .tooManyDigits count →
      input.HasLongInteger count
  members : ∀ {done : List (Text × Value)} {input : Text} {stop : Stop} {count : Nat},
    input.IsUnicode → Json.members bound done input = .error stop →
      stop.problem = .tooManyDigits count → input.HasLongInteger count

section Steps

variable {bound : Nat} (hBound : StopsAtIntegers bound) {input : Text} {stop : Stop} {count : Nat}
  (hInput : input.IsUnicode) (hStop : stop.problem = .tooManyDigits count)

include hBound hInput hStop

theorem StopsAtIntegers.value_succ (hRead : Json.value (bound + 1) input = .error stop) :
    input.HasLongInteger count := by
  unfold Json.value at hRead
  split at hRead
  case h_1 body =>
    split at hRead
    · rename_i hString
      cases hRead
      have hOfText := isOfText_of_stringBody hString
      rw [hStop] at hOfText
      cases hOfText
    · cases hRead
  case h_2 body =>
    split at hRead
    · cases hRead
    · have hSkip := (skipBlanks_suffix body).trans (List.suffix_cons (.char '\x7b') body)
      exact (hBound.members (hInput.of_suffix hSkip) hRead hStop).of_suffix hSkip
  case h_3 body =>
    split at hRead
    · cases hRead
    · have hSkip := (skipBlanks_suffix body).trans (List.suffix_cons (.char '[') body)
      exact (hBound.elements (hInput.of_suffix hSkip) hRead hStop).of_suffix hSkip
  case h_4 =>
    split at hRead
    · cases hRead
    · exact hasLongInteger_of_number hRead hStop

theorem StopsAtIntegers.elements_succ {done : List Value}
    (hRead : Json.elements (bound + 1) done input = .error stop) : input.HasLongInteger count := by
  unfold Json.elements at hRead
  split at hRead
  case h_1 hFirst =>
    cases hRead
    exact hBound.value hInput hFirst hStop
  case h_2 first after hFirst =>
    obtain ⟨-, hAfter⟩ := (readsLegibly bound).value hInput hFirst
    split at hRead
    · cases hRead
    · rename_i behind hSkip
      have hNext := ((skipBlanks_suffix behind).trans (suffix_of_skipBlanks hSkip)).trans hAfter
      exact (hBound.elements (hInput.of_suffix hNext) hRead hStop).of_suffix hNext
    · cases hRead
      cases hStop

theorem StopsAtIntegers.members_succ {done : List (Text × Value)}
    (hRead : Json.members (bound + 1) done input = .error stop) : input.HasLongInteger count := by
  unfold Json.members at hRead
  split at hRead
  case h_2 =>
    cases hRead
    cases hStop
  case h_1 inString =>
    have hInString := List.suffix_cons (CodePoint.char '\x22') inString
    split at hRead
    case h_1 hString =>
      cases hRead
      have hOfText := isOfText_of_stringBody hString
      rw [hStop] at hOfText
      cases hOfText
    case h_2 name afterName hString =>
      obtain ⟨-, hAfterName⟩ := string_joined (hInput.of_suffix hInString) hString
      split at hRead
      case h_2 =>
        cases hRead
        cases hStop
      case h_1 afterColon hColon =>
        have hValueText :=
          ((skipBlanks_suffix afterColon).trans (suffix_of_skipBlanks hColon)).trans
            (hAfterName.trans hInString)
        split at hRead
        case h_1 hFound =>
          cases hRead
          exact (hBound.value (hInput.of_suffix hValueText) hFound hStop).of_suffix hValueText
        case h_2 found after hFound =>
          obtain ⟨-, hAfter⟩ := (readsLegibly bound).value (hInput.of_suffix hValueText) hFound
          have hAfter := hAfter.trans hValueText
          simp only at hRead
          split at hRead
          · cases hRead
          · rename_i behind hSkip
            have hNext :=
              ((skipBlanks_suffix behind).trans (suffix_of_skipBlanks hSkip)).trans hAfter
            exact (hBound.members (hInput.of_suffix hNext) hRead hStop).of_suffix hNext
          · cases hRead
            cases hStop

end Steps

theorem stopsAtIntegers (bound : Nat) : StopsAtIntegers bound := by
  induction bound with
  | zero =>
      constructor
      · intro input stop count _ hRead hStop
        cases hRead
        cases hStop
      · intro done input stop count _ hRead hStop
        cases hRead
        cases hStop
      · intro done input stop count _ hRead hStop
        cases hRead
        cases hStop
  | succ bound ih =>
      constructor
      · intro input stop count hInput hRead hStop
        exact ih.value_succ hInput hStop hRead
      · intro done input stop count hInput hRead hStop
        exact ih.elements_succ hInput hStop hRead
      · intro done input stop count hInput hRead hStop
        exact ih.members_succ hInput hStop hRead

theorem problem_of_toFault {input : Text} {stop : Stop} {count : Nat}
    (hFault : stop.toFault input = .tooManyDigits count) :
    stop.problem = .tooManyDigits count := by
  unfold Stop.toFault at hFault
  split at hFault
  · rename_i hProblem
    cases hFault
    exact hProblem
  · cases hFault

theorem hasLongInteger_of_parse {input : Text} (hInput : input.IsUnicode) {count : Nat}
    (hRead : parse input = .error (.tooManyDigits count)) : input.HasLongInteger count := by
  unfold parse at hRead
  split at hRead
  case h_1 => cases hRead
  case h_2 stop hDocument =>
    have hStop := problem_of_toFault (Except.error.inj hRead)
    unfold document at hDocument
    split at hDocument
    case h_1 =>
      cases hDocument
      cases hStop
    case h_2 =>
      split at hDocument
      case h_1 hValue =>
        cases hDocument
        have hSkip := skipBlanks_suffix input
        exact ((stopsAtIntegers _).value (hInput.of_suffix hSkip) hValue hStop).of_suffix hSkip
      case h_2 =>
        split at hDocument
        · cases hDocument
        · cases hDocument
          cases hStop

/-! ### Digits alone -/

section Digits

variable {digits : Text} (hDigits : ∀ point ∈ digits, point.isAsciiDigit = true)

include hDigits

theorem wholePart_of_digits :
    wholePart (.char '1' :: digits) = some (.char '1' :: digits, []) := by
  have hAll : ∀ point ∈ CodePoint.char '1' :: digits, point.isAsciiDigit = true :=
    List.forall_mem_cons.mpr ⟨rfl, hDigits⟩
  have hTake := List.takeWhile_eq_self_iff.mpr hAll
  have hDrop := List.dropWhile_eq_nil_iff.mpr hAll
  show some (List.takeWhile CodePoint.isAsciiDigit (.char '1' :: digits),
    List.dropWhile CodePoint.isAsciiDigit (.char '1' :: digits)) = _
  rw [hTake, hDrop]

theorem number_of_digits (hLong : Numeral.digitLimit < digits.length + 1) :
    number (.char '1' :: digits) =
      .error ⟨.tooManyDigits (digits.length + 1), digits.length + 1⟩ := by
  have hUnsigned : unsignedNumber false (.char '1' :: digits) =
      .error (.tooManyDigits (digits.length + 1)) := by
    rw [unsignedNumber, wholePart_of_digits hDigits]
    exact if_pos hLong
  unfold number
  dsimp only
  rw [hUnsigned]
  rfl

theorem parse_of_digits (hLong : Numeral.digitLimit < digits.length + 1) :
    parse (.char '1' :: digits) = .error (.tooManyDigits (digits.length + 1)) := by
  have hValue : ∀ bound, value (bound + 1) (.char '1' :: digits) =
      .error ⟨.tooManyDigits (digits.length + 1), digits.length + 1⟩ := by
    intro bound
    exact number_of_digits hDigits hLong
  have hDocument : document (.char '1' :: digits) =
      .error ⟨.tooManyDigits (digits.length + 1), digits.length + 1⟩ := by
    have hSkip : skipBlanks (.char '1' :: digits) = .char '1' :: digits := rfl
    unfold document
    rw [hSkip, hValue]
    rfl
  rw [parse, hDocument]
  rfl

end Digits

end Json

end LogicSignature
