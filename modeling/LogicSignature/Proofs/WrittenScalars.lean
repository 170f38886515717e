import LogicSignature.Proofs.TextRuns

/-
Scalars as they are written.

Text goes to a sheet piece by piece, and a line that has become too long is folded where the form
allows it. Whatever the column at which a text starts, what is written is a plain, single-quoted or
double-quoted form of the text.
-/

namespace LogicSignature.Yaml.Writer

open Scalar

/-! ### Sheets -/

namespace Sheet

@[simp]
theorem text_put (sheet : Sheet) (text : Text) : (sheet.put text).text = sheet.text ++ text := by
  simp [Sheet.text, put]

@[simp]
theorem text_breakLine (sheet : Sheet) (lineEnd : CodePoint) :
    (sheet.breakLine lineEnd).text = sheet.text ++ [lineEnd] := by
  simp [Sheet.text, breakLine]

@[simp]
theorem text_inText (sheet : Sheet) : sheet.inText.text = sheet.text := rfl

theorem text_mark {sheet : Sheet} {spaced : Bool} (hSpaced : (sheet.whitespace || !spaced) = true)
    (text : Text) (whitespace indention : Bool) :
    (sheet.mark text spaced whitespace indention).text = sheet.text ++ text := by
  simp only [mark, hSpaced, if_true]
  exact text_put sheet text

theorem text_mark_spaced {sheet : Sheet} (hWhite : sheet.whitespace = false) (text : Text)
    (whitespace indention : Bool) :
    (sheet.mark text true whitespace indention).text = sheet.text ++ .char ' ' :: text := by
  simp only [mark, hWhite]
  exact text_put sheet _

/-- In the middle of a line, going to an indentation starts a new line. -/
theorem indentTo_of_used {sheet : Sheet} {indent : Nat}
    (hUsed : sheet.indention = false ∨ indent < sheet.column) :
    sheet.indentTo indent =
      if 0 < indent then
        { (sheet.breakLine '\n').put (Text.repeated indent ' ') with whitespace := true }
      else sheet.breakLine '\n' := by
  have hBreak : (!sheet.indention || decide (indent < sheet.column) ||
      (sheet.column == indent && !sheet.whitespace)) = true := by
    rcases hUsed with hUsed | hUsed <;> simp [hUsed]
  rw [indentTo]
  simp only [hBreak, if_true]
  rfl

theorem text_indentTo {sheet : Sheet} {indent : Nat}
    (hUsed : sheet.indention = false ∨ indent < sheet.column) :
    (sheet.indentTo indent).text = sheet.text ++ Text.ofChars ('\n' :: spaces indent) := by
  rw [indentTo_of_used hUsed]
  cases indent with
  | zero => simp [Text.ofChars]
  | succ indent =>
      have hText := text_put (sheet.breakLine '\n') (Text.repeated (indent + 1) ' ')
      rw [text_breakLine, List.append_assoc] at hText
      rw [if_pos (Nat.succ_pos indent)]
      refine hText.trans ?_
      simp [Text.ofChars, Text.repeated]

theorem column_indentTo {sheet : Sheet} {indent : Nat}
    (hUsed : sheet.indention = false ∨ indent < sheet.column) :
    (sheet.indentTo indent).column = indent := by
  rw [indentTo_of_used hUsed]
  cases indent with
  | zero => rfl
  | succ indent => simp [breakLine, put, Text.repeated]

/-- At the start of a line, going to an indentation only writes it. -/
theorem text_indentTo_fresh {sheet : Sheet} {indent : Nat} (hIndent : 0 < indent)
    (hColumn : sheet.column = 0) (hWhite : sheet.whitespace = true)
    (hIndention : sheet.indention = true) :
    (sheet.indentTo indent).text = sheet.text ++ Text.ofChars (spaces indent) := by
  have hFresh : (!sheet.indention || decide (indent < sheet.column) ||
      (sheet.column == indent && !sheet.whitespace)) = false := by
    simp [hColumn, hWhite, hIndention]
  rw [indentTo]
  simp only [hFresh, Bool.false_eq_true, if_false]
  rw [hColumn, if_pos hIndent]
  refine (text_put sheet (Text.repeated indent ' ')).trans ?_
  simp [Text.ofChars, Text.repeated]

end Sheet

/-! ### Escapes -/

theorem hexNumber?_snoc (digits : List Char) (digit : Char) :
    hexNumber? (digits ++ [digit]) = (hexNumber? digits).bind fun high =>
      ((CodePoint.char digit).hexDigit?).map fun low => high * 16 + low := by
  rw [hexNumber?, List.foldl_append, ← hexNumber?]
  cases hexNumber? digits with
  | none => rfl
  | some high =>
      change ((CodePoint.char digit).hexDigit?).bind (fun low => some (high * 16 + low)) =
        ((CodePoint.char digit).hexDigit?).map (fun low => high * 16 + low)
      cases (CodePoint.char digit).hexDigit? <;> rfl

theorem hexNumber?_zeros (count : Nat) (digits : List Char) :
    hexNumber? (List.replicate count '0' ++ digits) = hexNumber? digits := by
  induction count with
  | zero => rfl
  | succ count ih =>
      rw [List.replicate_succ, List.cons_append]
      exact ih

theorem hexNumber?_toDigits (number : Nat) :
    hexNumber? ((Nat.toDigits 16 number).map Char.toUpper) = some number ∧
      ∀ character ∈ (Nat.toDigits 16 number).map Char.toUpper, Inline character := by
  have hDigit : ∀ digit < 16, (CodePoint.char (Nat.digitChar digit).toUpper).hexDigit? =
      some digit ∧ Inline (Nat.digitChar digit).toUpper := by decide
  induction number using Nat.strongRecOn with
  | ind number ih =>
      by_cases hSmall : number < 16
      · rw [Nat.toDigits_of_lt_base hSmall]
        obtain ⟨hValue, hInline⟩ := hDigit number hSmall
        refine ⟨?_, by simpa using hInline⟩
        have hSnoc := hexNumber?_snoc [] (Nat.digitChar number).toUpper
        rw [hValue] at hSnoc
        simpa [hexNumber?] using hSnoc
      · obtain ⟨hHigh, hInline⟩ := ih (number / 16) (by omega)
        obtain ⟨hLow, hLast⟩ := hDigit (number % 16) (by omega)
        rw [Nat.toDigits_of_base_le (by decide) (by omega), List.map_append]
        constructor
        · rw [List.map_singleton, hexNumber?_snoc, hHigh, hLow]
          simp only [Option.bind_some, Option.map_some, Option.some.injEq]
          omega
        · intro character hMember
          rcases List.mem_append.mp hMember with hFirst | hSecond
          · exact hInline character hFirst
          · rw [List.map_singleton, List.mem_singleton] at hSecond
            rw [hSecond]
            exact hLast

/-- A number in upper-case digits, with zeros in front. -/
theorem exists_upperHex {width number : Nat}
    (hLength : (Nat.toDigits 16 number).length ≤ width) :
    ∃ digits, Text.upperHex width number = Text.ofChars digits ∧ digits.length = width ∧
      hexNumber? digits = some number ∧ ∀ character ∈ digits, Inline character := by
  obtain ⟨hValue, hInline⟩ := hexNumber?_toDigits number
  refine ⟨List.replicate (width - (Nat.toDigits 16 number).length) '0' ++
    (Nat.toDigits 16 number).map Char.toUpper, ?_, ?_, ?_, ?_⟩
  · simp [Text.upperHex, Text.padZeros, Text.ofChars]
  · simp only [List.length_append, List.length_replicate, List.length_map]
    omega
  · rw [hexNumber?_zeros, hValue]
  · intro character hMember
    rcases List.mem_append.mp hMember with hZero | hDigit
    · rw [List.eq_of_mem_replicate hZero]
      decide
    · exact hInline character hDigit

theorem exists_codeEscape {point : CodePoint} {letter : Char} {width : Nat}
    (hLength : codeEscapeLength? letter = some width) (hLetter : Inline letter)
    (hCode : (Nat.toDigits 16 point.code).length ≤ width) :
    ∃ letters, Text.ofChars ['\x5c', letter] ++ Text.upperHex width point.code =
      Text.ofChars ('\x5c' :: letters) ∧ Escapes point letters := by
  obtain ⟨digits, hText, hDigits, hNumber, hInline⟩ := exists_upperHex hCode
  refine ⟨letter :: digits, ?_, .code (by rw [hLength, hDigits]) hNumber ?_⟩
  · rw [hText]
    rfl
  · exact List.forall_mem_cons.mpr ⟨hLetter, hInline⟩

theorem exists_escape (point : CodePoint) :
    ∃ letters, escape point = Text.ofChars ('\x5c' :: letters) ∧ Escapes point letters := by
  unfold escape
  split
  · rename_i letter hLetter
    refine ⟨[letter], rfl, ?_⟩
    unfold escapeLetter? at hLetter
    split at hLetter <;> cases hLetter <;> exact .letter rfl (by decide)
  · have hBound := point.code_lt
    simp only
    split
    · refine exists_codeEscape (by rfl) (by decide) ?_
      exact (Nat.length_toDigits_le_iff (by decide) (by decide)).mpr (by omega)
    · split
      · refine exists_codeEscape (by rfl) (by decide) ?_
        exact (Nat.length_toDigits_le_iff (by decide) (by decide)).mpr (by omega)
      · refine exists_codeEscape (by rfl) (by decide) ?_
        exact (Nat.length_toDigits_le_iff (by decide) (by decide)).mpr (by omega)

/-! ### Double-quoted text -/

/-- A sheet with a form of a content behind the text in front of it. -/
def Quotes (indent : Nat) (content before : Text) (sheet : Sheet) : Prop :=
  ∃ written, sheet.text = before ++ Text.ofChars written ∧ BodyForm indent true content written ∧
    written.head? ≠ some '\n'

section Double

variable {indent : Nat} {content before : Text} {sheet : Sheet}

theorem quotes_nil (hText : sheet.text = before) : Quotes indent [] before sheet :=
  ⟨[], hText.trans (List.append_nil before).symm, .run .nil, by simp⟩

theorem quotes_escaped {point : CodePoint} (hQuotes : Quotes indent content (before ++ escape point)
    sheet) : Quotes indent (point :: content) before sheet := by
  obtain ⟨written, hText, hBody, _⟩ := hQuotes
  obtain ⟨letters, hLetters, hEscapes⟩ := exists_escape point
  refine ⟨'\x5c' :: (letters ++ written), ?_, ?_, by simp⟩
  · rw [hText, hLetters, List.append_assoc]
    simp [Text.ofChars]
  · have hPrepended := BodyForm.prepend (.escaped rfl hEscapes .nil) hBody
    rwa [List.append_nil] at hPrepended

theorem quotes_unescaped {point : CodePoint} (hPlain : isEscaped point = false)
    (hQuotes : Quotes indent content (before ++ [point]) sheet) :
    Quotes indent (point :: content) before sheet := by
  obtain ⟨written, hText, hBody, hBreak⟩ := hQuotes
  simp only [isEscaped, Bool.or_eq_false_iff, Bool.not_eq_false', Bool.and_eq_true,
    decide_eq_true_iff, beq_eq_false_iff_ne] at hPlain
  obtain ⟨⟨hQuote, hBackslash⟩, hLow, hHigh⟩ := hPlain
  obtain ⟨character, rfl, hInline⟩ := exists_char hLow hHigh
  refine ⟨character :: written, ?_, ?_, ?_⟩
  · rw [hText, List.append_assoc]
    rfl
  · by_cases hSpace : character = ' '
    · rw [hSpace]
      exact hBody.space hBreak
    · by_cases hSingle : character = '\x27'
      · rw [hSingle]
        exact .prepend (.mark (by decide) .nil) hBody
      · refine .prepend (.plain hInline ?_ .nil) hBody
        simp only [endsQuotedRun, Bool.or_eq_false_iff, beq_eq_false_iff_ne, hInline.isBreak]
        refine ⟨⟨⟨⟨⟨hSingle, ?_⟩, ?_⟩, hSpace⟩, hInline.ne (by decide)⟩, trivial⟩
        · exact fun hSame => hQuote (congrArg CodePoint.char hSame)
        · exact fun hSame => hBackslash (congrArg CodePoint.char hSame)
  · rintro ⟨rfl⟩
    exact absurd hInline (by decide)

/-- A fold stands in front of text. -/
theorem quotes_folded (hContent : content ≠ []) (hSpace : content.head? ≠ some (.char ' '))
    (hQuotes : Quotes indent content (before ++ Text.ofChars ('\x5c' :: '\n' :: spaces indent))
      sheet) : Quotes indent content before sheet := by
  obtain ⟨written, hText, hBody, hBreak⟩ := hQuotes
  have hSome : written ≠ [] := by
    rintro rfl
    exact hContent hBody.eq_nil
  have hGoesOn : GoesOn written := by
    rcases hBody.start with hGoesOn | ⟨_, _, hHead⟩ | ⟨hLine, _⟩
    · exact hGoesOn
    · exact absurd hHead hSpace
    · exact absurd hLine hBreak
  refine ⟨'\x5c' :: '\n' :: (spaces indent ++ written), ?_, hBody.fold hSome hGoesOn, by simp⟩
  rw [hText, List.append_assoc]
  simp [Text.ofChars]

/-- Behind a fold a space is escaped, because it would be taken for indentation. -/
theorem quotes_foldedSpace (hQuotes : Quotes indent content
    (before ++ Text.ofChars ('\x5c' :: '\n' :: (spaces indent ++ ['\x5c', ' ']))) sheet) :
    Quotes indent (.char ' ' :: content) before sheet := by
  obtain ⟨written, hText, hBody, _⟩ := hQuotes
  have hSpace : Escapes (.char ' ') [' '] := .letter rfl (by decide)
  have hEscaped : BodyForm indent true (.char ' ' :: content) ('\x5c' :: ' ' :: written) :=
    .prepend (.escaped rfl hSpace .nil) hBody
  refine ⟨_, ?_, hEscaped.fold (List.cons_ne_nil _ _) ?_, by simp⟩
  · rw [hText, List.append_assoc]
    simp [Text.ofChars]
  · rintro _ ⟨rfl⟩
    exact ⟨by decide, by decide⟩

end Double

section Folding

variable {sheet : Sheet} {indent : Nat}

theorem text_folded (hColumn : indent ≤ sheet.column) :
    ((sheet.put "\\").indentTo indent).inText.text =
      sheet.text ++ Text.ofChars ('\x5c' :: '\n' :: spaces indent) := by
  have hUsed : indent < (sheet.put "\\").column := Nat.lt_succ_of_le hColumn
  rw [Sheet.text_inText, Sheet.text_indentTo (.inr hUsed), Sheet.text_put, List.append_assoc]
  rfl

theorem text_foldDouble (hColumn : indent ≤ sheet.column) {following : Option CodePoint}
    (hOther : following ≠ some (.char ' ')) :
    (foldDouble sheet indent following).text =
      sheet.text ++ Text.ofChars ('\x5c' :: '\n' :: spaces indent) := by
  rw [foldDouble, if_neg (by simpa using hOther), text_folded hColumn]

theorem text_foldDouble_space (hColumn : indent ≤ sheet.column) :
    (foldDouble sheet indent (some (.char ' '))).text =
      sheet.text ++ Text.ofChars ('\x5c' :: '\n' :: (spaces indent ++ ['\x5c'])) := by
  rw [foldDouble, if_pos (by decide), Sheet.text_put, text_folded hColumn, List.append_assoc]
  simp [Text.ofChars, Text.ofString]

theorem column_foldDouble_space (hColumn : indent ≤ sheet.column) :
    (foldDouble sheet indent (some (.char ' '))).column = indent + 1 := by
  have hUsed : indent < (sheet.put "\\").column := Nat.lt_succ_of_le hColumn
  have hFolded : ((sheet.put "\\").indentTo indent).inText.column = indent :=
    Sheet.column_indentTo (.inr hUsed)
  rw [foldDouble, if_pos (by decide)]
  exact congrArg (· + 1) hFolded

/-- A space at the start of a line is not folded again. -/
theorem putDoubleFrom_space (hColumn : sheet.column ≤ foldColumn) (split : Bool) (rest : Text) :
    putDoubleFrom indent split false [] (.char ' ' :: rest) sheet =
      putDoubleFrom indent split false [.char ' '] rest sheet := by
  have hShort : decide (foldColumn < sheet.column + ([] : Text).length) = false := by
    simpa using hColumn
  rw [putDoubleFrom, if_neg (by decide), hShort, Bool.and_false, if_neg (by decide)]

end Folding

/-- What is written of a text behind the pending code points is a form of it. The induction goes
over the length of the text, since a space behind a fold is written together with what follows. -/
theorem quotes_putDoubleFrom {indent : Nat} (hIndent : indent < foldColumn) (text : Text)
    (isFirst : Bool) (pending : Text) (sheet : Sheet) :
    Quotes indent text (sheet.text ++ pending.reverse)
      (putDoubleFrom indent true isFirst pending text sheet) := by
  induction hLength : text.length using Nat.strongRecOn
    generalizing text isFirst pending sheet with
  | ind length ih =>
      cases text with
      | nil => exact quotes_nil (Sheet.text_put sheet pending.reverse)
      | cons point rest =>
          rw [List.length_cons] at hLength
          have ihRest := fun isFirst pending sheet =>
            ih rest.length (by omega) rest isFirst pending sheet rfl
          rw [putDoubleFrom]
          cases hEscaped : isEscaped point with
          | true =>
              have hText : ((sheet.put pending.reverse).put (escape point)).text =
                  sheet.text ++ pending.reverse ++ escape point := by
                rw [Sheet.text_put, Sheet.text_put]
              simp only [if_true]
              generalize (sheet.put pending.reverse).put (escape point) = begun at hText ⊢
              apply quotes_escaped
              rw [← hText]
              split
              case isFalse => simpa using ihRest false [] begun
              case isTrue hFold =>
                simp only [Bool.and_eq_true, Bool.not_eq_true', decide_eq_true_iff,
                  List.isEmpty_eq_false_iff] at hFold
                have hColumn : indent ≤ begun.column := by omega
                by_cases hSpace : rest.head? = some (.char ' ')
                · obtain ⟨others, rfl⟩ := List.head?_eq_some_iff.mp hSpace
                  rw [List.length_cons] at hLength
                  have hFolded := ih others.length (by omega) others false [.char ' ']
                    (foldDouble begun indent (some (.char ' '))) rfl
                  rw [text_foldDouble_space hColumn, List.append_assoc] at hFolded
                  rw [List.head?_cons, putDoubleFrom_space
                    (by rw [column_foldDouble_space hColumn]; exact hIndent)]
                  apply quotes_foldedSpace
                  simpa [Text.ofChars] using hFolded
                · apply quotes_folded hFold.1.1.2 hSpace
                  have hFolded := ihRest false [] (foldDouble begun indent rest.head?)
                  rw [text_foldDouble hColumn hSpace] at hFolded
                  simpa using hFolded
          | false =>
              simp only [Bool.false_eq_true, if_false]
              split
              case isFalse =>
                apply quotes_unescaped hEscaped
                simpa using ihRest false (point :: pending) sheet
              case isTrue hFold =>
                simp only [Bool.and_eq_true, decide_eq_true_iff] at hFold
                have hColumn : indent ≤ (sheet.put pending.reverse).column := by
                  simp only [Sheet.put, List.length_reverse]
                  omega
                have hFolded := ihRest false [point]
                  (foldDouble (sheet.put pending.reverse) indent (some point))
                by_cases hSpace : point = .char ' '
                · subst hSpace
                  rw [text_foldDouble_space hColumn, Sheet.text_put, List.append_assoc] at hFolded
                  apply quotes_foldedSpace
                  simpa [Text.ofChars] using hFolded
                · have hOther : some point ≠ some (.char ' ') := by simpa using hSpace
                  rw [text_foldDouble hColumn hOther, Sheet.text_put] at hFolded
                  exact quotes_folded (List.cons_ne_nil _ _) hOther
                    (quotes_unescaped hEscaped hFolded)

theorem text_putDouble {indent : Nat} (hIndent : indent < foldColumn) {sheet : Sheet}
    (hWhite : sheet.whitespace = false) (text : Text) :
    ∃ written, (putDouble sheet indent true text).text =
        sheet.text ++ Text.ofChars (' ' :: '\x22' :: (written ++ ['\x22'])) ∧
      BodyForm indent true text written := by
  obtain ⟨written, hText, hBody, _⟩ :=
    quotes_putDoubleFrom hIndent text true [] (sheet.mark "\x22" true false false)
  refine ⟨written, ?_, hBody⟩
  rw [putDouble, Sheet.text_mark (Bool.or_true _), hText, Sheet.text_mark_spaced hWhite]
  simp [Text.ofChars, Text.ofString]

/-! ### Single-quoted text -/

/-- The characters of a word between single quotes. -/
def doubled (word : List Char) : List Char :=
  word.flatMap fun character => if character = '\x27' then ['\x27', '\x27'] else [character]

theorem runForm_doubled {indent : Nat} {word : List Char}
    (hInline : ∀ character ∈ word, Inline character) (hUnspaced : ' ' ∉ word) :
    RunForm indent false (Text.ofChars word) (doubled word) := by
  induction word with
  | nil => exact .nil
  | cons character rest ih =>
      obtain ⟨hFirst, hRest⟩ := List.forall_mem_cons.mp hInline
      obtain ⟨hSpace, hOthers⟩ := not_or.mp (mt List.mem_cons.mpr hUnspaced)
      have hLater := ih hRest hOthers
      rw [doubled, List.flatMap_cons, ← doubled]
      by_cases hQuote : character = '\x27'
      · rw [if_pos hQuote, hQuote]
        exact .quote rfl hLater
      · rw [if_neg hQuote]
        by_cases hMark : character ∈ freeMarks false
        · exact .mark hMark hLater
        · refine .plain hFirst ?_ hLater
          obtain ⟨hDouble, hBackslash⟩ : character ≠ '\x22' ∧ character ≠ '\x5c' := by
            simpa [freeMarks] using hMark
          simp [endsQuotedRun, hQuote, hDouble, hBackslash, Ne.symm hSpace, hFirst.isBreak,
            hFirst.ne (show ¬ Inline '\t' by decide)]

theorem flatMap_quote_ofChars (word : List Char) :
    ((Text.ofChars word).flatMap fun point =>
      if point == .char '\x27' then ("\x27\x27" : Text) else [point]) =
      Text.ofChars (doubled word) := by
  rw [Text.ofChars, List.flatMap_map, doubled, Text.ofChars, List.map_flatMap]
  congr 1
  funext character
  by_cases hQuote : character = '\x27'
  · subst hQuote
    rfl
  · simp [hQuote]

theorem text_foldl_breakLine (sheet : Sheet) (count : Nat) :
    (List.foldl Sheet.breakLine sheet (Text.ofChars (lineEnds count))).text =
      sheet.text ++ Text.ofChars (lineEnds count) := by
  induction count generalizing sheet with
  | zero => simp [Text.ofChars]
  | succ count ih =>
      rw [lineEnds, List.replicate_succ, Text.ofChars, List.map_cons, List.foldl_cons,
        ← Text.ofChars, ih, Sheet.text_breakLine, List.append_assoc]
      rfl

theorem text_putBreaks {indent count : Nat} (hIndent : 0 < indent) (hCount : 0 < count)
    (sheet : Sheet) :
    (putBreaks sheet indent (Text.ofChars (lineEnds count))).text =
      sheet.text ++ Text.ofChars ('\n' :: (lineEnds count ++ spaces indent)) := by
  obtain ⟨count, rfl⟩ := Nat.exists_eq_add_one_of_ne_zero (Nat.ne_of_gt hCount)
  have hLast : Text.ofChars (lineEnds (count + 1)) =
      Text.ofChars (lineEnds count) ++ [.char '\n'] := by
    rw [lineEnds, List.replicate_succ', Text.ofChars, List.map_append]
    rfl
  have hText := text_foldl_breakLine (sheet.breakLine '\n') (count + 1)
  rw [hLast, List.foldl_append] at hText
  have hBegun : (Text.ofChars (lineEnds (count + 1))).head? == some (.char '\n') := rfl
  rw [putBreaks, if_pos hBegun, hLast, List.foldl_append, Sheet.text_indentTo_fresh hIndent rfl rfl
    rfl, hText, Sheet.text_breakLine]
  simp [Text.ofChars, List.replicate_succ']

theorem ofChars_ne_space {word : List Char} (hUnspaced : ' ' ∉ word) :
    (Text.ofChars word == Text.ofString " ") = false := by
  rw [beq_eq_false_iff_ne]
  intro hSame
  have hMember : CodePoint.char ' ' ∈ Text.ofChars word := by
    rw [hSame]
    decide
  obtain ⟨character, hCharacter, hSpace⟩ := List.mem_map.mp hMember
  rw [CodePoint.char.inj hSpace] at hCharacter
  exact hUnspaced hCharacter

theorem eq_one_of_spaces {count : Nat}
    (hSpace : (Text.ofChars (spaces count) == Text.ofString " ") = true) : count = 1 := by
  have hLength := congrArg List.length (beq_iff_eq.mp hSpace)
  simpa [Text.ofChars, Text.ofString] using hLength

theorem doubled_spaces (count : Nat) : doubled (spaces count) = spaces count := by
  induction count with
  | zero => rfl
  | succ count ih =>
      rw [spaces, List.replicate_succ, doubled, List.flatMap_cons, ← doubled, ih]
      rfl

/-- What is written of runs between single quotes is a form of their text. -/
theorem putSingleRuns_form {indent : Nat} (hIndent : 0 < indent) (hFold : indent < foldColumn)
    {startsWithWord : Bool} {parts : List Text} (hParts : Alternates startsWithWord parts)
    (isFirst : Bool) (sheet : Sheet) :
    ∃ written, (putSingleRuns indent true isFirst parts sheet).text =
        sheet.text ++ Text.ofChars written ∧
      BodyForm indent false parts.flatten written ∧ (startsWithWord = true → GoesOn written) := by
  induction hParts generalizing isFirst sheet with
  | nil => exact ⟨[], by simp [putSingleRuns, Text.ofChars], .run .nil, fun _ => by rintro _ ⟨⟩⟩
  | @word word rest hSome hInline hUnspaced _ ih =>
      have hRun := @runForm_doubled indent word hInline hUnspaced
      rw [putSingleRuns]
      simp only [ofChars_ne_space hUnspaced, any_endsLine_ofChars hInline, Bool.false_and,
        Bool.false_eq_true, if_false, flatMap_quote_ofChars]
      obtain ⟨written, hText, hBody, _⟩ := ih false (sheet.put (Text.ofChars (doubled word)))
      refine ⟨doubled word ++ written, ?_, .prepend hRun hBody, fun _ => ?_⟩
      · rw [hText, Sheet.text_put]
        simp [Text.ofChars]
      · exact hRun.goesOn_append (by simpa [Text.ofChars] using hSome) written
  | @spaces count rest hCount _ ih =>
      rw [putSingleRuns]
      split
      case isTrue hSpace =>
        simp only [Bool.and_eq_true, decide_eq_true_iff] at hSpace
        have hUsed : indent < sheet.column := by omega
        obtain ⟨written, hText, hBody, hGoesOn⟩ := ih false (sheet.indentTo indent)
        refine ⟨'\n' :: (spaces indent ++ written), ?_, ?_, fun hWord => by cases hWord⟩
        · rw [hText, Sheet.text_indentTo (.inr hUsed)]
          simp [Text.ofChars]
        · rw [eq_one_of_spaces hSpace.1.1.1.1]
          exact .lines .nil 0 (hGoesOn rfl) hBody
      case isFalse =>
        rw [any_endsLine_ofChars (fun _ hMember => inline_of_mem_spaces hMember),
          flatMap_quote_ofChars, doubled_spaces]
        obtain ⟨written, hText, hBody, hGoesOn⟩ :=
          ih false (sheet.put (Text.ofChars (spaces count)))
        refine ⟨spaces count ++ written, ?_, .spaced .nil hCount (hGoesOn rfl) hBody,
          fun hWord => by cases hWord⟩
        · rw [if_neg (by decide), hText, Sheet.text_put]
          simp [Text.ofChars]
  | @lines count rest hCount _ ih =>
      have hLine : (Text.ofChars (lineEnds count)).any endsLine = true := by
        obtain ⟨count, rfl⟩ := Nat.exists_eq_add_one_of_ne_zero (Nat.ne_of_gt hCount)
        rfl
      have hSpace : ' ' ∉ lineEnds count := by simp
      rw [putSingleRuns]
      simp only [ofChars_ne_space hSpace, hLine, Bool.false_and, Bool.false_eq_true, if_false,
        if_true]
      obtain ⟨written, hText, hBody, hGoesOn⟩ :=
        ih false (putBreaks sheet indent (Text.ofChars (lineEnds count)))
      refine ⟨'\n' :: (lineEnds count ++ (spaces indent ++ written)), ?_, ?_,
        fun hWord => by cases hWord⟩
      · rw [hText, text_putBreaks hIndent hCount]
        simp [Text.ofChars]
      · have hLines := BodyForm.lines .nil count (hGoesOn rfl) hBody
        have hFolded : folded ['\n'] (lineEnds count) = lineEnds count := by
          obtain ⟨count, rfl⟩ := Nat.exists_eq_add_one_of_ne_zero (Nat.ne_of_gt hCount)
          rfl
        rwa [hFolded] at hLines

theorem text_putSingle {indent : Nat} (hIndent : 0 < indent) (hFold : indent < foldColumn)
    {sheet : Sheet} (hWhite : sheet.whitespace = false) {text : Text} {startsWithWord : Bool}
    (hRuns : Alternates startsWithWord (runs text)) :
    ∃ written, (putSingle sheet indent true text).text =
        sheet.text ++ Text.ofChars (' ' :: '\x27' :: (written ++ ['\x27'])) ∧
      BodyForm indent false text written := by
  obtain ⟨written, hText, hBody, _⟩ :=
    putSingleRuns_form hIndent hFold hRuns true (sheet.mark "\x27" true false false)
  have hFlatten : (runs text).flatten = text := List.flatten_splitBy _ text
  rw [hFlatten] at hBody
  refine ⟨written, ?_, hBody⟩
  rw [putSingle, Sheet.text_mark (Bool.or_true _), hText, Sheet.text_mark_spaced hWhite]
  simp [Text.ofChars, Text.ofString]

/-! ### Plain text -/

/-- Writes one run of a plain text. -/
def putPlainRun (indent : Nat) (split : Bool) (sheet : Sheet) (run : Text) : Sheet :=
  if run == " " && foldColumn < sheet.column && split then (sheet.indentTo indent).inText
  else if run.any endsLine then (putBreaks sheet indent run).inText
  else sheet.put run

theorem putPlain_eq {sheet : Sheet} (hWhite : sheet.whitespace = false) (indent : Nat)
    (split : Bool) {text : Text} (hSome : text ≠ []) :
    putPlain sheet indent split text =
      (runs text).foldl (putPlainRun indent split) (sheet.put " ").inText := by
  obtain ⟨point, rest, rfl⟩ := List.exists_cons_of_ne_nil hSome
  rw [putPlain, hWhite]
  · rfl
  · exact hSome

theorem indention_putPlainRuns (indent : Nat) (split : Bool) (parts : List Text) {sheet : Sheet}
    (hText : sheet.indention = false) :
    (parts.foldl (putPlainRun indent split) sheet).indention = false := by
  induction parts generalizing sheet with
  | nil => exact hText
  | cons run rest ih =>
      apply ih
      unfold putPlainRun
      split
      · rfl
      · split
        · rfl
        · exact hText

/-- What is written of runs without quotes is a form of their text: from a word on, or behind the
word that stands in front of them. -/
theorem putPlainRuns_form {indent : Nat} (hFold : indent < foldColumn) {text : Text}
    (hMark : hasMark text = false) (hLine : ∀ point ∈ text, endsLine point = false)
    (hLast : text.getLast? ≠ some (.char ' ')) {startsWithWord : Bool} {parts : List Text}
    (hParts : Alternates startsWithWord parts) {front : Text} {word : List Char}
    (hText : text = front ++ (Text.ofChars word ++ parts.flatten))
    (hTurn : if startsWithWord then
      word = [] ∧ parts ≠ [] ∧ ∀ previous ∈ front.getLast?, separates previous = true
      else IsWord word) (sheet : Sheet) :
    ∃ content written, parts.flatten = Text.ofChars content ∧
      (parts.foldl (putPlainRun indent true) sheet).text = sheet.text ++ Text.ofChars written ∧
      PlainForm indent (word ++ content) (word ++ written) := by
  induction hParts generalizing front word sheet with
  | nil startsWithWord =>
      cases startsWithWord with
      | true => exact absurd rfl hTurn.2.1
      | false => exact ⟨[], [], rfl, by simp [Text.ofChars], by simpa using .word hTurn⟩
  | @word first rest hSome hInline hUnspaced hRest ih =>
      obtain ⟨rfl, _, hFront⟩ := hTurn
      have hWord : IsWord first := by
        rw [hText] at hMark
        refine isWord_of_hasMark hMark hSome hInline hUnspaced hFront fun next hHead => ?_
        exact separates_of_runKind (mt (hRest.kind_head next hHead).mpr (by decide))
      have hPut : putPlainRun indent true sheet (Text.ofChars first) =
          sheet.put (Text.ofChars first) := by
        rw [putPlainRun, ofChars_ne_space hUnspaced, any_endsLine_ofChars hInline]
        rfl
      obtain ⟨content, written, hContent, hWritten, hForm⟩ :=
        ih hText hWord (sheet.put (Text.ofChars first))
      refine ⟨first ++ content, first ++ written, ?_, ?_, hForm⟩
      · rw [List.flatten_cons, hContent]
        simp [Text.ofChars]
      · rw [List.foldl_cons, hPut, hWritten, Sheet.text_put]
        simp [Text.ofChars]
  | @spaces count rest hCount _ ih =>
      have hSome : rest ≠ [] := by
        rintro rfl
        apply hLast
        obtain ⟨count, rfl⟩ := Nat.exists_eq_add_one_of_ne_zero (Nat.ne_of_gt hCount)
        rw [hText]
        simp [Text.ofChars, List.replicate_succ', List.getLast?_append]
      have hLater : text = (front ++ (Text.ofChars word ++ Text.ofChars (spaces count))) ++
          (Text.ofChars [] ++ rest.flatten) := by
        rw [hText]
        simp [Text.ofChars]
      have hFront : ∀ previous ∈ (front ++ (Text.ofChars word ++
          Text.ofChars (spaces count))).getLast?, separates previous = true := by
        obtain ⟨count, rfl⟩ := Nat.exists_eq_add_one_of_ne_zero (Nat.ne_of_gt hCount)
        intro previous hPrevious
        simp [Text.ofChars, List.replicate_succ', List.getLast?_append] at hPrevious
        rw [← hPrevious]
        rfl
      have ihRest := ih hLater ⟨rfl, hSome, hFront⟩
      rw [List.foldl_cons]
      generalize hAfter : putPlainRun indent true sheet (Text.ofChars (spaces count)) = after
      obtain ⟨content, written, hContent, hWritten, hForm⟩ := ihRest after
      unfold putPlainRun at hAfter
      split at hAfter
      case isTrue hSpace =>
        simp only [Bool.and_eq_true, decide_eq_true_iff] at hSpace
        have hUsed : indent < sheet.column := by omega
        refine ⟨' ' :: content, '\n' :: (spaces indent ++ written), ?_, ?_, .folded hTurn hForm⟩
        · rw [List.flatten_cons, hContent, eq_one_of_spaces hSpace.1.1]
          rfl
        · rw [hWritten, ← hAfter, Sheet.text_inText, Sheet.text_indentTo (.inr hUsed)]
          simp [Text.ofChars]
      case isFalse =>
        rw [any_endsLine_ofChars (fun _ hMember => inline_of_mem_spaces hMember),
          if_neg (by decide)] at hAfter
        refine ⟨spaces count ++ content, spaces count ++ written, ?_, ?_,
          .spaced hTurn hCount hForm⟩
        · rw [List.flatten_cons, hContent]
          simp [Text.ofChars]
        · rw [hWritten, ← hAfter, Sheet.text_put]
          simp [Text.ofChars]
  | @lines count rest hCount _ ih =>
      have hMember : CodePoint.char '\n' ∈ text := by
        rw [hText]
        simp [Text.ofChars, Nat.ne_of_gt hCount]
      exact absurd (hLine _ hMember) (by decide)

/-! ### Whole scalars -/

/-- How a text may be written: whether it is plain, and its characters. -/
inductive Written (indent : Nat) : Text → Bool → List Char → Prop
  | plain {content written : List Char} (hForm : PlainForm indent content written)
      (hMark : hasMark (Text.ofChars content) = false)
      (hTag : Plain.tag (Text.ofChars content) = .text) :
      Written indent (Text.ofChars content) true written
  | quoted {content : Text} {double : Bool} {body : List Char}
      (hForm : BodyForm indent double content body) :
      Written indent content false (quoteMark double :: (body ++ [quoteMark double]))

theorem Written.inline {indent : Nat} {content : Text} {isPlain : Bool} {written : List Char}
    (hWritten : Written indent content isPlain written) :
    ∀ character ∈ written, Inline character ∨ character = '\n' := by
  cases hWritten with
  | plain hForm _ _ => exact hForm.inline
  | @quoted _ double body hForm =>
      have hMark : Inline (quoteMark double) := by cases double <;> decide
      intro character hMember
      simp only [List.mem_cons, List.mem_append, List.not_mem_nil, or_false] at hMember
      rcases hMember with rfl | hBody | rfl
      · exact .inl hMark
      · exact hForm.inline character hBody
      · exact .inl hMark

section Scalars

variable {indent : Nat} {sheet : Sheet} {text : Text}

theorem alternates_of_single (hSingle : (form text).single = true) :
    ∃ startsWithWord, Alternates startsWithWord (runs text) := by
  simp only [form, Bool.not_eq_true', Bool.or_eq_false_iff, List.any_eq_false] at hSingle
  obtain ⟨hLineSpace, hSpaceLine, hSpecial⟩ := hSingle
  exact alternates_runs (fun point hMember => by simpa using hSpecial point hMember) hSpaceLine
    hLineSpace

theorem single_of_plain (hPlain : (form text).plain = true) : (form text).single = true := by
  simp only [form, Bool.not_eq_true', Bool.or_eq_false_iff] at hPlain ⊢
  exact ⟨hPlain.1.1.1.2, hPlain.1.1.2⟩

theorem written_putPlain (hFold : indent < foldColumn) (hWhite : sheet.whitespace = false)
    (hPlain : (form text).plain = true) (hTag : Plain.tag text = .text) :
    ∃ written, (putPlain sheet indent true text).text =
        sheet.text ++ Text.ofChars (' ' :: written) ∧ Written indent text true written := by
  obtain ⟨startsWithWord, hRuns⟩ := alternates_of_single (single_of_plain hPlain)
  have hFlatten : (runs text).flatten = text := List.flatten_splitBy _ text
  have hSome : text ≠ [] := by
    rintro rfl
    cases hTag
  simp only [form, Bool.not_eq_true', Bool.or_eq_false_iff, List.any_eq_false] at hPlain
  obtain ⟨⟨⟨⟨⟨⟨hFirst, hLast⟩, hFirstLine, _⟩, _⟩, _⟩, hLines⟩, hMark⟩ := hPlain
  have hStart : Alternates true (runs text) := by
    refine hRuns.of_head fun point hHead => ⟨fun _ => ?_, fun _ => rfl⟩
    rw [hFlatten] at hHead
    rw [hHead] at hFirst hFirstLine
    simp [runKind, show isSpace point = false from hFirst,
      show endsLine point = false from hFirstLine]
  have hEnd : text.getLast? ≠ some (.char ' ') := by
    intro hSpace
    rw [hSpace] at hLast
    cases hLast
  have hParts : runs text ≠ [] := by
    intro hNone
    rw [hNone] at hFlatten
    exact hSome hFlatten.symm
  have hWhole : text = [] ++ (Text.ofChars [] ++ (runs text).flatten) := hFlatten.symm
  obtain ⟨content, written, hContent, hText, hForm⟩ := putPlainRuns_form hFold hMark
    (fun point hMember => by simpa using hLines point hMember) hEnd hStart hWhole
    ⟨rfl, hParts, by rintro _ ⟨⟩⟩ (sheet.put " ").inText
  rw [hFlatten] at hContent
  subst hContent
  refine ⟨written, ?_, .plain hForm hMark hTag⟩
  rw [putPlain_eq hWhite indent true hSome, hText, Sheet.text_inText, Sheet.text_put]
  simp [Text.ofChars, Text.ofString]

/-- A text in the middle of a line is written in one of its forms. -/
theorem written_putScalar (hIndent : 0 < indent) (hFold : indent < foldColumn)
    (hWhite : sheet.whitespace = false) (text : Text) :
    ∃ isPlain written, (putScalar sheet indent false .text text).text =
        sheet.text ++ Text.ofChars (' ' :: written) ∧ Written indent text isPlain written := by
  have hBinary : (Tag.text == Tag.binary) = false := rfl
  rw [putScalar]
  simp only [hBinary, Bool.false_and, Bool.not_false, Bool.and_true, Bool.true_and,
    Bool.false_eq_true, if_false]
  split
  case isTrue hPlain =>
    obtain ⟨hTag, hPlain⟩ := Bool.and_eq_true_iff.mp hPlain
    exact ⟨true, written_putPlain hFold hWhite hPlain (beq_iff_eq.mp hTag)⟩
  case isFalse =>
    split
    case isTrue hSingle =>
      obtain ⟨startsWithWord, hRuns⟩ := alternates_of_single hSingle
      obtain ⟨written, hText, hBody⟩ := text_putSingle hIndent hFold hWhite hRuns
      exact ⟨false, _, hText, .quoted hBody⟩
    case isFalse =>
      obtain ⟨written, hText, hBody⟩ := text_putDouble hFold hWhite text
      exact ⟨false, _, hText, .quoted hBody⟩

/-- Behind a text, the line is in use. -/
theorem indention_putScalar (hUsed : sheet.indention = false) (text : Text) :
    (putScalar sheet indent false .text text).indention = false := by
  rw [putScalar, if_neg (by decide)]
  split
  · cases text with
    | nil => exact hUsed
    | cons point rest => exact indention_putPlainRuns indent true (runs (point :: rest)) rfl
  · split
    · exact Bool.and_false _
    · exact Bool.and_false _

end Scalars

end LogicSignature.Yaml.Writer
