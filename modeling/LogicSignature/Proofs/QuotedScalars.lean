import LogicSignature.Proofs.EscapedText
import LogicSignature.Proofs.PlainScalars

/-
Quoted scalars of YAML text.

A quoted scalar is written as runs of characters, escapes among them, with spaces and line ends
between the runs. A line end stands for a space, and behind it every further one stands for itself;
between double quotes an escaped line end stands for nothing. Reading gives the content back.
-/

namespace LogicSignature.Yaml.Scalar

variable {index line column : Nat}

/-! ### Escapes -/

/-- A code point, and the letters that stand for it behind a backslash. -/
inductive Escapes : CodePoint → List Char → Prop
  | letter {letter character : Char} (hLetter : letterEscape? letter = some character)
      (hInline : Inline letter) : Escapes (.char character) [letter]
  | code {point : CodePoint} {letter : Char} {digits : List Char}
      (hLength : codeEscapeLength? letter = some digits.length)
      (hNumber : hexNumber? digits = some point.code)
      (hInline : ∀ character ∈ letter :: digits, Inline character) :
      Escapes point (letter :: digits)

theorem Escapes.inline {point : CodePoint} {letters : List Char}
    (hEscapes : Escapes point letters) : ∀ character ∈ letters, Inline character := by
  cases hEscapes with
  | letter hLetter hInline => simpa using hInline
  | code hLength hNumber hInline => exact hInline

theorem letterEscape?_of_codeEscapeLength? {letter : Char} {length : Nat}
    (hLength : codeEscapeLength? letter = some length) : letterEscape? letter = none := by
  unfold codeEscapeLength? at hLength
  split at hLength
  · rfl
  · rfl
  · rfl
  · cases hLength

theorem escape_escapes {point : CodePoint} {letters : List Char} (hEscapes : Escapes point letters)
    (rest : List Char) :
    escape ⟨letters ++ rest, none, index, line, column⟩ =
      .ok ([point], ⟨rest, none, index + letters.length, line, column + letters.length⟩) := by
  cases hEscapes with
  | letter hLetter hInline =>
      simp only [escape, Cursor.peek, List.singleton_append, List.getElem?_cons_zero, hLetter,
        Cursor.next_inline hInline]
      rfl
  | @code point letter digits hLength hNumber hInline =>
      obtain ⟨hFirst, hDigits⟩ := List.forall_mem_cons.mp hInline
      have hCode : escapedPoint point.code = .ok point := by
        have hBound := point.code_lt
        rw [escapedPoint, if_neg (by omega), if_neg (by omega), CodePoint.ofCode_code]
      simp only [escape, Cursor.peek, List.cons_append, List.getElem?_cons_zero,
        letterEscape?_of_codeEscapeLength? hLength, hLength, Cursor.next_inline hFirst,
        List.take_left', hNumber, Nat.lt_irrefl, if_false, hCode,
        Cursor.advance_inline hDigits, List.length_cons]
      simp only [Nat.add_assoc, Nat.add_comm 1]

/-! ### Line ends -/

abbrev lineEnds (count : Nat) : List Char := List.replicate count '\n'

/-- An outcome with a result and the text that is left. -/
def Reads {Result : Type} (outcome : Except Fault (Result × Cursor)) (result : Result)
    (rest : List Char) : Prop :=
  ∃ index line column, outcome = .ok (result, ⟨rest, none, index, line, column⟩)

theorem takeWhile_blanks {rest : List Char} (hRest : GoesOn rest) (count : Nat) :
    Cursor.takeWhile ⟨spaces count ++ rest, none, index, line, column⟩
        (fun character => character == ' ' || character == '\t') =
      (spaces count, ⟨rest, none, index + count, line, column + count⟩) := by
  rw [Cursor.takeWhile_inline (fun _ hMember => inline_of_mem_spaces hMember)
    (fun _ hMember => by rw [List.eq_of_mem_replicate hMember]; rfl) hRest.blank_eq_false,
    List.length_replicate]

theorem takeWhile_blanks_of_lineEnd (rest : List Char) :
    Cursor.takeWhile ⟨'\n' :: rest, none, index, line, column⟩
        (fun character => character == ' ' || character == '\t') =
      ([], ⟨'\n' :: rest, none, index, line, column⟩) :=
  Cursor.takeWhile_none (by rintro _ ⟨rfl⟩; rfl)

/-- The line ends behind the first one, and the indentation of the line that ends them. -/
theorem quotedBreaks_lineEnds {rest : List Char} (hRest : GoesOn rest) {indent : Nat}
    (hIndent : 0 < indent) (count : Nat) {bound : Nat} (hBound : count < bound) :
    Reads (quotedBreaks bound
      ⟨lineEnds count ++ (spaces indent ++ rest), none, index, line, column⟩) (lineEnds count)
      rest := by
  obtain ⟨bound, rfl⟩ := Nat.exists_eq_add_one_of_ne_zero (Nat.ne_of_gt (Nat.zero_lt_of_lt hBound))
  induction count generalizing bound index line column with
  | zero =>
      have hMarker : Cursor.atDocumentMarker ⟨spaces indent ++ rest, none, index, line, column⟩ =
          false := (unmarked_spaces hIndent rest).atDocumentMarker
      refine ⟨index + indent, line, column + indent, ?_⟩
      simp only [lineEnds, List.replicate_zero, List.nil_append, quotedBreaks, Cursor.endsUnclear,
        Option.isSome_none, Bool.false_and, Bool.false_eq_true, if_false, hMarker,
        Cursor.skipWhile, takeWhile_blanks hRest]
      cases rest with
      | nil => rfl
      | cons character others =>
          simp only [Cursor.peek, List.getElem?_cons_zero, (hRest character rfl).1.isBreak,
            Bool.false_eq_true, if_false]
  | succ count ih =>
      obtain ⟨bound, rfl⟩ := Nat.exists_eq_add_one_of_ne_zero (show bound ≠ 0 by omega)
      have hMarker : Cursor.atDocumentMarker ⟨'\n' :: (lineEnds count ++ (spaces indent ++ rest)),
          none, index, line, column⟩ = false :=
        Unmarked.atDocumentMarker ⟨by simp, by simp⟩
      obtain ⟨endIndex, endLine, endColumn, hMore⟩ := @ih (index + 1) (line + 1) 0 bound (by omega)
      refine ⟨endIndex, endLine, endColumn, ?_⟩
      have hBreak : Cursor.lineBreak ⟨'\n' :: (lineEnds count ++ (spaces indent ++ rest)), none,
          index, line, column⟩ =
          (['\n'], ⟨lineEnds count ++ (spaces indent ++ rest), none, index + 1, line + 1, 0⟩) := rfl
      rw [lineEnds, List.replicate_succ, List.cons_append, quotedBreaks]
      simp only [Cursor.endsUnclear, Option.isSome_none, Bool.false_and, Bool.false_eq_true,
        if_false, hMarker, Cursor.skipWhile, takeWhile_blanks_of_lineEnd, Cursor.peek,
        List.getElem?_cons_zero, hBreak, hMore]
      rfl

/-! ### Spaces between runs -/

theorem quotedSpaces_spaces {rest : List Char} (hRest : GoesOn rest) (hSome : rest ≠ [])
    (count : Nat) :
    Reads (quotedSpaces ⟨spaces count ++ rest, none, index, line, column⟩) (spaces count)
      rest := by
  obtain ⟨character, others, rfl⟩ := List.exists_cons_of_ne_nil hSome
  refine ⟨index + count, line, column + count, ?_⟩
  simp only [quotedSpaces, takeWhile_blanks hRest, Cursor.peek, List.getElem?_cons_zero,
    (hRest character rfl).1.isBreak, Bool.false_eq_true, if_false]

theorem quotedSpaces_lineEnd {rest : List Char} (hRest : GoesOn rest) {indent : Nat}
    (hIndent : 0 < indent) (count : Nat) :
    Reads (quotedSpaces
      ⟨'\n' :: (lineEnds count ++ (spaces indent ++ rest)), none, index, line, column⟩)
      (folded ['\n'] (lineEnds count)) rest := by
  have hBreak : Cursor.lineBreak ⟨'\n' :: (lineEnds count ++ (spaces indent ++ rest)), none,
      index, line, column⟩ =
      (['\n'], ⟨lineEnds count ++ (spaces indent ++ rest), none, index + 1, line + 1, 0⟩) := rfl
  obtain ⟨endIndex, endLine, endColumn, hMore⟩ := @quotedBreaks_lineEnds (index + 1) (line + 1) 0
    rest hRest indent hIndent count ((lineEnds count ++ (spaces indent ++ rest)).length + 1)
    (by simp only [List.length_append, List.length_replicate]; omega)
  refine ⟨endIndex, endLine, endColumn, ?_⟩
  simp only [quotedSpaces, takeWhile_blanks_of_lineEnd, Cursor.peek, List.getElem?_cons_zero,
    hBreak, hMore]
  rfl

/-! ### Runs -/

/-- The marks that stand for themselves between quotes of a kind. -/
def freeMarks (double : Bool) : List Char := if double then ['\x27'] else ['\x22', '\x5c']

/-- A run of a quoted scalar: its content, and how that is written. Behind an escaped line end
stands the indentation of the next line. -/
inductive RunForm (indent : Nat) (double : Bool) : Text → List Char → Prop
  | nil : RunForm indent double [] []
  | plain {character : Char} {content : Text} {written : List Char} (hInline : Inline character)
      (hPlain : endsQuotedRun character = false) (hForm : RunForm indent double content written) :
      RunForm indent double (.char character :: content) (character :: written)
  | mark {character : Char} {content : Text} {written : List Char}
      (hMark : character ∈ freeMarks double)
      (hForm : RunForm indent double content written) :
      RunForm indent double (.char character :: content) (character :: written)
  | quote {content : Text} {written : List Char} (hDouble : double = false)
      (hForm : RunForm indent double content written) :
      RunForm indent double (.char '\x27' :: content) ('\x27' :: '\x27' :: written)
  | escaped {point : CodePoint} {letters : List Char} {content : Text} {written : List Char}
      (hDouble : double = true) (hEscapes : Escapes point letters)
      (hForm : RunForm indent double content written) :
      RunForm indent double (point :: content) ('\x5c' :: (letters ++ written))
  | folded {content : Text} {character : Char} {written : List Char} (hDouble : double = true)
      (hForm : RunForm indent double content (character :: written)) :
      RunForm indent double content
        ('\x5c' :: '\n' :: (spaces indent ++ character :: written))

def quoteMark (double : Bool) : Char := if double then '\x22' else '\x27'

/-- What a run ends at: a space, a line end, or the closing quote, which is not doubled. -/
inductive EndsRun (double : Bool) : List Char → Prop
  | space (rest : List Char) : EndsRun double (' ' :: rest)
  | lineEnd (rest : List Char) : EndsRun double ('\n' :: rest)
  | closing {rest : List Char} (hRest : rest.head? ≠ some '\x27') :
      EndsRun double (quoteMark double :: rest)

section Runs

variable {double : Bool} {bound : Nat} {rest : List Char} {more : Text} {final : Cursor}

theorem takeWhile_stop {character : Char} (hStop : endsQuotedRun character = true) :
    Cursor.takeWhile ⟨character :: rest, none, index, line, column⟩
      (fun character => !endsQuotedRun character) =
      ([], ⟨character :: rest, none, index, line, column⟩) :=
  Cursor.takeWhile_none (by rintro _ ⟨rfl⟩; simp [hStop])

theorem quotedRun_ends (hEnds : EndsRun double rest) :
    quotedRun double (bound + 1) ⟨rest, none, index, line, column⟩ =
      .ok ([], ⟨rest, none, index, line, column⟩) := by
  cases hEnds with
  | space others =>
      simp [quotedRun, takeWhile_stop (show endsQuotedRun ' ' = true by decide), Cursor.peek,
        Text.ofChars]
  | lineEnd others =>
      simp [quotedRun, takeWhile_stop (show endsQuotedRun '\n' = true by decide), Cursor.peek,
        Text.ofChars]
  | @closing others hRest =>
      rw [List.head?_eq_getElem?] at hRest
      cases double with
      | true =>
          simp [quotedRun, quoteMark, takeWhile_stop (show endsQuotedRun '\x22' = true by decide),
            Cursor.peek, Text.ofChars]
      | false =>
          simp [quotedRun, quoteMark, takeWhile_stop (show endsQuotedRun '\x27' = true by decide),
            Cursor.peek, Text.ofChars, hRest]

theorem quotedRun_plain {character : Char} (hInline : Inline character)
    (hPlain : endsQuotedRun character = false)
    (hRest : quotedRun double (bound + 1) ⟨rest, none, index + 1, line, column + 1⟩ =
      .ok (more, final)) :
    quotedRun double (bound + 1) ⟨character :: rest, none, index, line, column⟩ =
      .ok (.char character :: more, final) := by
  have hTaken : Cursor.takeWhile ⟨character :: rest, none, index, line, column⟩
      (fun character => !endsQuotedRun character) =
      (character :: (Cursor.takeWhile ⟨rest, none, index + 1, line, column + 1⟩
        (fun character => !endsQuotedRun character)).1,
        (Cursor.takeWhile ⟨rest, none, index + 1, line, column + 1⟩
          (fun character => !endsQuotedRun character)).2) := by
    simp [Cursor.takeWhile, hPlain, Cursor.advance, Cursor.next_inline hInline]
  rw [quotedRun] at hRest ⊢
  rw [hTaken]
  generalize Cursor.takeWhile ⟨rest, none, index + 1, line, column + 1⟩
    (fun character => !endsQuotedRun character) = taken at hRest ⊢
  obtain ⟨run, after⟩ := taken
  -- Whatever ends the run in front of it, the character only joins the front of that run.
  cases hPeek : after.peek 0 with
  | none =>
      simp only [hPeek] at hRest ⊢
      cases hRest
      rfl
  | some found =>
      simp only [hPeek] at hRest ⊢
      split at hRest
      case isTrue hQuote =>
        rw [if_pos hQuote]
        split at hRest
        · cases hRest
        · cases hRest
          rfl
      case isFalse hQuote =>
        rw [if_neg hQuote]
        split at hRest
        case isTrue hMark =>
          rw [if_pos hMark]
          split at hRest
          · cases hRest
          · cases hRest
            rfl
        case isFalse hMark =>
          rw [if_neg hMark]
          split at hRest
          case isTrue hEscape =>
            rw [if_pos hEscape]
            split at hRest
            · cases hRest
            · split at hRest
              · cases hRest
              · cases hRest
                rfl
          case isFalse hEscape =>
            rw [if_neg hEscape]
            cases hRest
            rfl

theorem quotedRun_mark {character : Char} (hMark : character ∈ freeMarks double)
    (hRest : quotedRun double bound ⟨rest, none, index + 1, line, column + 1⟩ =
      .ok (more, final)) :
    quotedRun double (bound + 1) ⟨character :: rest, none, index, line, column⟩ =
      .ok (.char character :: more, final) := by
  cases double with
  | true =>
      have hQuote : character = '\x27' := List.mem_singleton.mp hMark
      subst hQuote
      rw [quotedRun, takeWhile_stop (by decide)]
      simp [Cursor.peek, Cursor.next_inline (show Inline '\x27' by decide), hRest, Text.ofChars]
  | false =>
      have hMarks : character = '\x22' ∨ character = '\x5c' := by simpa [freeMarks] using hMark
      rcases hMarks with rfl | rfl
      · rw [quotedRun, takeWhile_stop (by decide)]
        simp [Cursor.peek, Cursor.next_inline (show Inline '\x22' by decide), hRest, Text.ofChars]
      · rw [quotedRun, takeWhile_stop (by decide)]
        simp [Cursor.peek, Cursor.next_inline (show Inline '\x5c' by decide), hRest, Text.ofChars]

theorem quotedRun_quote
    (hRest : quotedRun false bound ⟨rest, none, index + 1 + 1, line, column + 1 + 1⟩ =
      .ok (more, final)) :
    quotedRun false (bound + 1) ⟨'\x27' :: '\x27' :: rest, none, index, line, column⟩ =
      .ok (.char '\x27' :: more, final) := by
  rw [quotedRun, takeWhile_stop (by decide)]
  simp [Cursor.peek, Cursor.advance, Cursor.next_inline (show Inline '\x27' by decide), hRest,
    Text.ofChars]

theorem quotedRun_escape {unescaped : Text} {next : Cursor}
    (hEscape : escape ⟨rest, none, index + 1, line, column + 1⟩ = .ok (unescaped, next))
    (hRest : quotedRun true bound next = .ok (more, final)) :
    quotedRun true (bound + 1) ⟨'\x5c' :: rest, none, index, line, column⟩ =
      .ok (unescaped ++ more, final) := by
  rw [quotedRun, takeWhile_stop (by decide)]
  simp [Cursor.peek, Cursor.next_inline (show Inline '\x5c' by decide), hEscape, hRest,
    Text.ofChars]

/-- An escaped line end stands for nothing, with the indentation behind it. -/
theorem escape_lineEnd (hRest : GoesOn rest) {indent : Nat} (hIndent : 0 < indent) :
    Reads (escape ⟨'\n' :: (spaces indent ++ rest), none, index, line, column⟩) [] rest := by
  have hBreak : Cursor.lineBreak ⟨'\n' :: (spaces indent ++ rest), none, index, line, column⟩ =
      (['\n'], ⟨spaces indent ++ rest, none, index + 1, line + 1, 0⟩) := rfl
  obtain ⟨endIndex, endLine, endColumn, hMore⟩ := @quotedBreaks_lineEnds (index + 1) (line + 1) 0
    rest hRest indent hIndent 0 ((spaces indent ++ rest).length + 1) (Nat.succ_pos _)
  rw [lineEnds, List.replicate_zero, List.nil_append] at hMore
  refine ⟨endIndex, endLine, endColumn, ?_⟩
  simp only [escape, Cursor.peek, List.getElem?_cons_zero, hBreak, hMore]
  rfl

theorem inline_of_mem_freeMarks {character : Char} (hMark : character ∈ freeMarks double) :
    Inline character ∧ character ≠ ' ' := by
  have hAll : (freeMarks double).all
      (fun mark => decide (Inline mark ∧ mark ≠ ' ')) = true := by
    cases double <;> rfl
  exact of_decide_eq_true (List.all_eq_true.mp hAll character hMark)

/-- A run starts with text. -/
theorem RunForm.goesOn {indent : Nat} {content : Text} {written : List Char}
    (hForm : RunForm indent double content written) : GoesOn written := by
  cases hForm with
  | nil => rintro _ ⟨⟩
  | plain hInline hPlain _ =>
      rintro _ ⟨rfl⟩
      refine ⟨hInline, ?_⟩
      rintro rfl
      cases hPlain
  | mark hMark _ =>
      rintro _ ⟨rfl⟩
      exact inline_of_mem_freeMarks hMark
  | quote _ _ =>
      rintro _ ⟨rfl⟩
      exact ⟨by decide, by decide⟩
  | escaped _ _ _ =>
      rintro _ ⟨rfl⟩
      exact ⟨by decide, by decide⟩
  | folded _ _ =>
      rintro _ ⟨rfl⟩
      exact ⟨by decide, by decide⟩

theorem quotedRun_form {indent : Nat} (hIndent : 0 < indent) {content : Text}
    {written : List Char} (hForm : RunForm indent double content written)
    (hRest : EndsRun double rest) (hBound : written.length < bound) :
    Reads (quotedRun double bound ⟨written ++ rest, none, index, line, column⟩) content rest := by
  obtain ⟨bound, rfl⟩ := Nat.exists_eq_add_one_of_ne_zero (Nat.ne_of_gt (Nat.zero_lt_of_lt hBound))
  induction hForm generalizing bound index line column with
  | nil => exact ⟨index, line, column, quotedRun_ends hRest⟩
  | plain hInline hPlain _ ih =>
      rw [List.length_cons] at hBound
      obtain ⟨endIndex, endLine, endColumn, hMore⟩ :=
        @ih (index + 1) line (column + 1) bound (by omega)
      exact ⟨endIndex, endLine, endColumn, quotedRun_plain hInline hPlain hMore⟩
  | mark hMark _ ih =>
      rw [List.length_cons] at hBound
      obtain ⟨bound, rfl⟩ := Nat.exists_eq_add_one_of_ne_zero (show bound ≠ 0 by omega)
      obtain ⟨endIndex, endLine, endColumn, hMore⟩ :=
        @ih (index + 1) line (column + 1) bound (by omega)
      exact ⟨endIndex, endLine, endColumn, quotedRun_mark hMark hMore⟩
  | quote hDouble _ ih =>
      subst hDouble
      rw [List.length_cons, List.length_cons] at hBound
      obtain ⟨bound, rfl⟩ := Nat.exists_eq_add_one_of_ne_zero (show bound ≠ 0 by omega)
      obtain ⟨endIndex, endLine, endColumn, hMore⟩ :=
        @ih (index + 1 + 1) line (column + 1 + 1) bound (by omega)
      exact ⟨endIndex, endLine, endColumn, quotedRun_quote hMore⟩
  | @escaped point letters content written hDouble hEscapes _ ih =>
      subst hDouble
      rw [List.length_cons, List.length_append] at hBound
      obtain ⟨bound, rfl⟩ := Nat.exists_eq_add_one_of_ne_zero (show bound ≠ 0 by omega)
      have hEscape := @escape_escapes (index + 1) line (column + 1) point letters hEscapes
        (written ++ rest)
      obtain ⟨endIndex, endLine, endColumn, hMore⟩ :=
        @ih (index + 1 + letters.length) line (column + 1 + letters.length) bound (by omega)
      refine ⟨endIndex, endLine, endColumn, ?_⟩
      rw [List.cons_append, List.append_assoc]
      exact quotedRun_escape hEscape hMore
  | @folded content character written hDouble hForm ih =>
      subst hDouble
      simp only [List.length_cons, List.length_append] at hBound
      obtain ⟨bound, rfl⟩ := Nat.exists_eq_add_one_of_ne_zero (show bound ≠ 0 by omega)
      have hStart : GoesOn (character :: (written ++ rest)) := fun _ hHead => hForm.goesOn _ hHead
      obtain ⟨nextIndex, nextLine, nextColumn, hEscape⟩ :=
        @escape_lineEnd (index + 1) line (column + 1) _ hStart indent hIndent
      obtain ⟨endIndex, endLine, endColumn, hMore⟩ :=
        @ih nextIndex nextLine nextColumn bound (by rw [List.length_cons]; omega)
      refine ⟨endIndex, endLine, endColumn, ?_⟩
      rw [List.cons_append, List.cons_append, List.append_assoc]
      exact quotedRun_escape hEscape hMore

end Runs

/-! ### Bodies -/

/-- What stands between the quotes: runs, with spaces or line ends between them. -/
inductive BodyForm (indent : Nat) (double : Bool) : Text → List Char → Prop
  | run {content : Text} {written : List Char} (hRun : RunForm indent double content written) :
      BodyForm indent double content written
  | spaced {content later : Text} {written laterWritten : List Char}
      (hRun : RunForm indent double content written) {count : Nat} (hCount : 0 < count)
      (hText : GoesOn laterWritten) (hBody : BodyForm indent double later laterWritten) :
      BodyForm indent double (content ++ (Text.ofChars (spaces count) ++ later))
        (written ++ (spaces count ++ laterWritten))
  | lines {content later : Text} {written laterWritten : List Char}
      (hRun : RunForm indent double content written) (count : Nat)
      (hText : GoesOn laterWritten) (hBody : BodyForm indent double later laterWritten) :
      BodyForm indent double (content ++ (Text.ofChars (folded ['\n'] (lineEnds count)) ++ later))
        (written ++ '\n' :: (lineEnds count ++ (spaces indent ++ laterWritten)))

section Bodies

variable {double : Bool} {bound : Nat}

theorem quotedBody_closing {cursor : Cursor} {content : Text} {rest : List Char}
    (hRun : Reads (quotedRun double (cursor.rest.length + 1) cursor) content
      (quoteMark double :: rest)) :
    Reads (quotedBody double (bound + 1) cursor) content rest := by
  obtain ⟨endIndex, endLine, endColumn, hRead⟩ := hRun
  refine ⟨endIndex + 1, endLine, endColumn + 1, ?_⟩
  rw [quotedBody, hRead]
  cases double <;> rfl

theorem quotedBody_spaces {cursor : Cursor} {content later : Text}
    {blanks rest next final : List Char} {character : Char}
    (hOther : character ≠ quoteMark double)
    (hRun : Reads (quotedRun double (cursor.rest.length + 1) cursor) content (character :: rest))
    (hSpaces : ∀ index line column,
      Reads (quotedSpaces ⟨character :: rest, none, index, line, column⟩) blanks next)
    (hBody : ∀ index line column,
      Reads (quotedBody double bound ⟨next, none, index, line, column⟩) later final) :
    Reads (quotedBody double (bound + 1) cursor) (content ++ (Text.ofChars blanks ++ later))
      final := by
  obtain ⟨runIndex, runLine, runColumn, hRun⟩ := hRun
  obtain ⟨nextIndex, nextLine, nextColumn, hSpaces⟩ := hSpaces runIndex runLine runColumn
  obtain ⟨endIndex, endLine, endColumn, hBody⟩ := hBody nextIndex nextLine nextColumn
  have hOpen : Cursor.isAt ⟨character :: rest, none, runIndex, runLine, runColumn⟩
      (if double then '\x22' else '\x27') = false := by
    rw [Cursor.isAt, Cursor.peek]
    simpa [quoteMark] using hOther
  refine ⟨endIndex, endLine, endColumn, ?_⟩
  simp only [quotedBody, hRun, hOpen, hSpaces, hBody, Bool.false_eq_true, if_false,
    List.append_assoc]

theorem goesOn_append {written rest : List Char} (hWritten : GoesOn written) (hRest : GoesOn rest) :
    GoesOn (written ++ rest) := by
  cases written with
  | nil => exact hRest
  | cons character others => exact fun _ hHead => hWritten _ hHead

theorem goesOn_quoteMark (rest : List Char) : GoesOn (quoteMark double :: rest) := by
  rintro _ ⟨rfl⟩
  cases double <;> exact ⟨by decide, by decide⟩

/-- Reading what stands between quotes gives its content, and ends behind the closing quote. -/
theorem quotedBody_form {indent : Nat} (hIndent : 0 < indent) {content : Text}
    {written : List Char} (hForm : BodyForm indent double content written) {rest : List Char}
    (hRest : rest.head? ≠ some '\x27') (hBound : written.length < bound) :
    Reads (quotedBody double bound
      ⟨written ++ quoteMark double :: rest, none, index, line, column⟩) content rest := by
  obtain ⟨bound, rfl⟩ := Nat.exists_eq_add_one_of_ne_zero (Nat.ne_of_gt (Nat.zero_lt_of_lt hBound))
  induction hForm generalizing bound index line column with
  | run hRun =>
      refine quotedBody_closing (quotedRun_form hIndent hRun (.closing hRest) ?_)
      rw [List.length_append]
      omega
  | @spaced content later written laterWritten hRun count hCount hText hBody ih =>
      obtain ⟨count, rfl⟩ := Nat.exists_eq_add_one_of_ne_zero (Nat.ne_of_gt hCount)
      simp only [List.length_append, List.length_replicate] at hBound
      obtain ⟨bound, rfl⟩ := Nat.exists_eq_add_one_of_ne_zero (show bound ≠ 0 by omega)
      have hOther : ' ' ≠ quoteMark double := by cases double <;> decide
      rw [List.append_assoc, List.append_assoc]
      refine quotedBody_spaces hOther (quotedRun_form hIndent hRun (.space _) ?_)
        (fun _ _ _ => quotedSpaces_spaces (goesOn_append hText (goesOn_quoteMark rest)) ?_
          (count + 1)) (fun _ _ _ => ih bound ?_)
      · rw [List.length_append]
        omega
      · exact List.append_ne_nil_of_right_ne_nil _ (List.cons_ne_nil _ _)
      · omega
  | @lines content later written laterWritten hRun count hText hBody ih =>
      simp only [List.length_append, List.length_cons, List.length_replicate] at hBound
      obtain ⟨bound, rfl⟩ := Nat.exists_eq_add_one_of_ne_zero (show bound ≠ 0 by omega)
      have hOther : '\n' ≠ quoteMark double := by cases double <;> decide
      rw [List.append_assoc, List.cons_append, List.append_assoc, List.append_assoc]
      refine quotedBody_spaces hOther (quotedRun_form hIndent hRun (.lineEnd _) ?_)
        (fun _ _ _ => quotedSpaces_lineEnd (goesOn_append hText (goesOn_quoteMark rest)) hIndent _)
        (fun _ _ _ => ih bound ?_)
      · rw [List.length_append]
        omega
      · omega

theorem quoted_form {indent : Nat} (hIndent : 0 < indent) {content : Text} {written : List Char}
    (hForm : BodyForm indent double content written) {rest : List Char}
    (hRest : rest.head? ≠ some '\x27') :
    Reads (quoted double
      ⟨quoteMark double :: (written ++ quoteMark double :: rest), none, index, line, column⟩)
      content rest := by
  have hMark : Inline (quoteMark double) := by cases double <;> decide
  rw [quoted, Cursor.next_inline hMark]
  refine quotedBody_form hIndent hForm hRest ?_
  rw [List.length_cons, List.length_append]
  omega

end Bodies

/-! ### Building bodies -/

section Building

variable {indent : Nat} {double : Bool} {content later : Text} {written laterWritten : List Char}

theorem RunForm.append (hRun : RunForm indent double content written)
    (hLater : RunForm indent double later laterWritten) :
    RunForm indent double (content ++ later) (written ++ laterWritten) := by
  induction hRun with
  | nil => exact hLater
  | plain hInline hPlain _ ih => exact .plain hInline hPlain ih
  | mark hMark _ ih => exact .mark hMark ih
  | quote hDouble _ ih => exact .quote hDouble ih
  | escaped hDouble hEscapes _ ih =>
      rw [List.cons_append, List.cons_append, List.append_assoc]
      exact .escaped hDouble hEscapes ih
  | folded hDouble _ ih =>
      rw [List.cons_append, List.cons_append, List.append_assoc]
      exact .folded hDouble ih

theorem BodyForm.prepend (hRun : RunForm indent double content written)
    (hBody : BodyForm indent double later laterWritten) :
    BodyForm indent double (content ++ later) (written ++ laterWritten) := by
  cases hBody with
  | run hFirst => exact .run (hRun.append hFirst)
  | spaced hFirst hCount hText hBody =>
      rw [← List.append_assoc content, ← List.append_assoc written]
      exact .spaced (hRun.append hFirst) hCount hText hBody
  | lines hFirst count hText hBody =>
      rw [← List.append_assoc content, ← List.append_assoc written]
      exact .lines (hRun.append hFirst) count hText hBody

theorem RunForm.eq_nil (hRun : RunForm indent double content []) : content = [] := by
  cases hRun
  rfl

theorem RunForm.goesOn_append (hRun : RunForm indent double content written)
    (hSome : content ≠ []) (rest : List Char) : GoesOn (written ++ rest) := by
  cases written with
  | nil => exact absurd hRun.eq_nil hSome
  | cons character others => exact fun _ hHead => hRun.goesOn _ hHead

/-- Where a body does not start with text, it starts with a space or a line end, and its content
starts with a space or a line end, too. -/
theorem BodyForm.start (hBody : BodyForm indent double content written) :
    GoesOn written ∨ (∃ rest, written = ' ' :: rest ∧ content.head? = some (.char ' ')) ∨
      written.head? = some '\n' ∧
        (content.head? = some (.char ' ') ∨ content.head? = some (.char '\n')) := by
  have hRun : ∀ {content : Text} {written gap : List Char} {character : Char},
      RunForm indent double content (character :: written) →
      GoesOn (character :: written ++ gap) := fun hRun _ hHead => hRun.goesOn _ hHead
  cases hBody with
  | run hFirst => exact .inl hFirst.goesOn
  | @spaced _ _ first _ hFirst count hCount hText hBody =>
      cases first with
      | cons character others => exact .inl (hRun hFirst)
      | nil =>
          obtain ⟨count, rfl⟩ := Nat.exists_eq_add_one_of_ne_zero (Nat.ne_of_gt hCount)
          rw [hFirst.eq_nil]
          exact .inr (.inl ⟨_, rfl, rfl⟩)
  | @lines _ _ first _ hFirst count hText hBody =>
      cases first with
      | cons character others => exact .inl (hRun hFirst)
      | nil =>
          rw [hFirst.eq_nil]
          refine .inr (.inr ⟨rfl, ?_⟩)
          cases count with
          | zero => exact .inl rfl
          | succ count => exact .inr rfl

theorem BodyForm.space (hBody : BodyForm indent double content written)
    (hBreak : written.head? ≠ some '\n') :
    BodyForm indent double (.char ' ' :: content) (' ' :: written) := by
  have hAlone : GoesOn written → BodyForm indent double (.char ' ' :: content) (' ' :: written) :=
    fun hText => .spaced .nil Nat.one_pos hText hBody
  cases hBody with
  | run hFirst => exact hAlone hFirst.goesOn
  | @spaced first later firstWritten laterWritten hFirst count hCount hText hLater =>
      cases firstWritten with
      | cons character others => exact hAlone (fun _ hHead => hFirst.goesOn _ hHead)
      | nil =>
          rw [hFirst.eq_nil]
          exact .spaced .nil (Nat.succ_pos count) hText hLater
  | @lines first later firstWritten laterWritten hFirst count hText hLater =>
      cases firstWritten with
      | cons character others => exact hAlone (fun _ hHead => hFirst.goesOn _ hHead)
      | nil => exact absurd rfl hBreak

theorem BodyForm.fold (hBody : BodyForm indent true content written) (hSome : written ≠ [])
    (hText : GoesOn written) :
    BodyForm indent true content ('\x5c' :: '\n' :: (spaces indent ++ written)) := by
  cases hBody with
  | run hFirst =>
      obtain ⟨character, others, rfl⟩ := List.exists_cons_of_ne_nil hSome
      exact .run (.folded rfl hFirst)
  | @spaced first later firstWritten laterWritten hFirst count hCount hLaterText hLater =>
      cases firstWritten with
      | nil =>
          obtain ⟨count, rfl⟩ := Nat.exists_eq_add_one_of_ne_zero (Nat.ne_of_gt hCount)
          exact absurd rfl (hText ' ' rfl).2
      | cons character others =>
          rw [← List.append_assoc (spaces indent)]
          exact .spaced (.folded rfl hFirst) hCount hLaterText hLater
  | @lines first later firstWritten laterWritten hFirst count hLaterText hLater =>
      cases firstWritten with
      | nil => exact absurd (hText '\n' rfl).1 (by decide)
      | cons character others =>
          rw [← List.append_assoc (spaces indent)]
          exact .lines (.folded rfl hFirst) count hLaterText hLater

theorem BodyForm.eq_nil (hBody : BodyForm indent double content []) : content = [] := by
  generalize hNone : ([] : List Char) = written at hBody
  cases hBody with
  | run hFirst =>
      subst hNone
      exact hFirst.eq_nil
  | @spaced _ _ _ _ _ count hCount _ _ =>
      have hEmpty := List.append_eq_nil_iff.mp (List.append_eq_nil_iff.mp hNone.symm).2
      rw [List.replicate_eq_nil_iff] at hEmpty
      omega
  | lines _ _ _ _ => exact absurd (List.append_eq_nil_iff.mp hNone.symm).2 (List.cons_ne_nil _ _)

/-! ### Characters of bodies -/

theorem RunForm.inline (hRun : RunForm indent double content written) :
    ∀ character ∈ written, Inline character ∨ character = '\n' := by
  induction hRun with
  | nil => simp
  | plain hInline _ _ ih => simpa using ⟨.inl hInline, ih⟩
  | mark hMark _ ih => simpa using ⟨.inl (inline_of_mem_freeMarks hMark).1, ih⟩
  | quote _ _ ih =>
      have hQuote : Inline '\x27' := by decide
      simpa [hQuote] using ih
  | escaped _ hEscapes _ ih =>
      have hBackslash : Inline '\x5c' := by decide
      have hLetters := hEscapes.inline
      intro character hMember
      simp only [List.mem_cons, List.mem_append] at hMember
      rcases hMember with rfl | hLetter | hLater
      · exact .inl hBackslash
      · exact .inl (hLetters character hLetter)
      · exact ih character hLater
  | folded _ _ ih =>
      intro character hMember
      simp only [List.mem_cons, List.mem_append] at hMember ih
      rcases hMember with rfl | rfl | hIndent | hLater
      · exact .inl (by decide)
      · exact .inr rfl
      · exact .inl (inline_of_mem_spaces hIndent)
      · exact ih character hLater

theorem BodyForm.inline (hBody : BodyForm indent double content written) :
    ∀ character ∈ written, Inline character ∨ character = '\n' := by
  induction hBody with
  | run hRun => exact hRun.inline
  | spaced hRun _ _ _ ih =>
      intro character hMember
      simp only [List.mem_append] at hMember
      rcases hMember with hFirst | hGap | hLater
      · exact hRun.inline character hFirst
      · exact .inl (inline_of_mem_spaces hGap)
      · exact ih character hLater
  | lines hRun _ _ _ ih =>
      intro character hMember
      simp only [List.mem_append, List.mem_cons] at hMember
      rcases hMember with hFirst | rfl | hEnd | hIndent | hLater
      · exact hRun.inline character hFirst
      · exact .inr rfl
      · exact .inr (List.eq_of_mem_replicate hEnd)
      · exact .inl (inline_of_mem_spaces hIndent)
      · exact ih character hLater

end Building

end LogicSignature.Yaml.Scalar
