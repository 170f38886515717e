import LogicSignature.Yaml.Scalar

/-
Plain scalars of YAML text.

A plain scalar is written as words with spaces between them, and a single space may be a line end
with the indentation of the next line behind it. Reading gives the words with their spaces back, and
stops at the first line that is indented less than the scalar may be.
-/

namespace LogicSignature.Yaml

/-- A character that can stand on a line as it is: printable ASCII. -/
def Inline (character : Char) : Prop := 32 ≤ character.toNat ∧ character.toNat ≤ 126

instance (character : Char) : Decidable (Inline character) := inferInstanceAs (Decidable (_ ∧ _))

/-- Spaces at the start of a line, or between words. -/
abbrev spaces (count : Nat) : List Char := List.replicate count ' '

theorem Inline.ne {character other : Char} (hInline : Inline character) (hOther : ¬ Inline other) :
    character ≠ other := by
  rintro rfl
  exact hOther hInline

theorem Inline.isBreak {character : Char} (hInline : Inline character) :
    isBreak character = false := by
  simp [Yaml.isBreak, hInline.ne (show ¬ Inline '\n' by decide),
    hInline.ne (show ¬ Inline '\r' by decide), hInline.ne (show ¬ Inline '\x85' by decide),
    hInline.ne (show ¬ Inline '\u2028' by decide), hInline.ne (show ¬ Inline '\u2029' by decide)]

theorem Inline.isGap {character : Char} (hInline : Inline character) (hSpace : character ≠ ' ') :
    isGap (some character) = false := by
  simp [Yaml.isGap, hInline.isBreak, hSpace, hInline.ne (show ¬ Inline '\t' by decide)]

theorem inline_of_mem_spaces {count : Nat} {character : Char} (hMember : character ∈ spaces count) :
    Inline character := by
  rw [List.eq_of_mem_replicate hMember]
  decide

namespace Cursor

variable {beyond : Option Fault} {index line column : Nat}

/-! ### Moving along a line -/

theorem next_inline {character : Char} (hInline : Inline character) (rest : List Char) :
    next ⟨character :: rest, beyond, index, line, column⟩ =
      ⟨rest, beyond, index + 1, line, column + 1⟩ := by
  have hReturn : (character == '\r') = false := by
    simpa using hInline.ne (show ¬ Inline '\r' by decide)
  have hMark : (character == '\uFEFF') = false := by
    simpa using hInline.ne (show ¬ Inline '\uFEFF' by decide)
  simp [next, hReturn, hInline.isBreak, hMark]

theorem advance_inline {word : List Char} (hInline : ∀ character ∈ word, Inline character)
    (rest : List Char) :
    advance ⟨word ++ rest, beyond, index, line, column⟩ word.length =
      ⟨rest, beyond, index + word.length, line, column + word.length⟩ := by
  induction word generalizing index column with
  | nil => rfl
  | cons character word ih =>
      obtain ⟨hFirst, hRest⟩ := List.forall_mem_cons.mp hInline
      rw [List.cons_append, List.length_cons, advance, next_inline hFirst, ih hRest]
      simp only [Nat.add_assoc, Nat.add_comm 1]

theorem takeWhile_inline {condition : Char → Bool} {word rest : List Char}
    (hInline : ∀ character ∈ word, Inline character)
    (hWord : ∀ character ∈ word, condition character = true)
    (hRest : ∀ character ∈ rest.head?, condition character = false) :
    takeWhile ⟨word ++ rest, beyond, index, line, column⟩ condition =
      (word, ⟨rest, beyond, index + word.length, line, column + word.length⟩) := by
  have hTaken : (word ++ rest).takeWhile condition = word := by
    rw [List.takeWhile_append_of_pos hWord]
    cases rest with
    | nil => exact List.append_nil word
    | cons character others =>
        rw [List.takeWhile_cons_of_neg (by simp [hRest character rfl]), List.append_nil]
  simp only [takeWhile, hTaken, advance_inline hInline]

theorem takeWhile_none {condition : Char → Bool} {cursor : Cursor}
    (hRest : ∀ character ∈ cursor.rest.head?, condition character = false) :
    cursor.takeWhile condition = ([], cursor) := by
  obtain ⟨rest, beyond, index, line, column⟩ := cursor
  exact takeWhile_inline (List.forall_mem_nil _) (List.forall_mem_nil _) hRest

theorem takeWhile_spaces {rest : List Char} (count : Nat) (hRest : rest.head? ≠ some ' ') :
    takeWhile ⟨spaces count ++ rest, beyond, index, line, column⟩ (· == ' ') =
      (spaces count, ⟨rest, beyond, index + count, line, column + count⟩) := by
  have hTaken := @takeWhile_inline beyond index line column (· == ' ') (spaces count) rest
    (fun _ hMember => inline_of_mem_spaces hMember)
    (fun _ hMember => beq_iff_eq.mpr (List.eq_of_mem_replicate hMember)) (by
      intro character hHead
      rw [Option.mem_def] at hHead
      rw [hHead] at hRest
      simpa using hRest)
  rwa [List.length_replicate] at hTaken

end Cursor

/-- What a line can go on with behind spaces: text, or nothing. -/
def GoesOn (rest : List Char) : Prop :=
  ∀ character ∈ rest.head?, Inline character ∧ character ≠ ' '

theorem GoesOn.blank_eq_false {rest : List Char} (hRest : GoesOn rest) :
    ∀ character ∈ rest.head?, (character == ' ' || character == '\t') = false := by
  intro character hHead
  obtain ⟨hInline, hSpace⟩ := hRest character hHead
  simp [hSpace, hInline.ne (show ¬ Inline '\t' by decide)]

/-- A line that does not start like a document marker. -/
def Unmarked (rest : List Char) : Prop := rest.head? ≠ some '-' ∧ rest.head? ≠ some '.'

theorem unmarked_spaces {count : Nat} (hCount : 0 < count) (rest : List Char) :
    Unmarked (spaces count ++ rest) := by
  obtain ⟨count, rfl⟩ := Nat.exists_eq_add_one_of_ne_zero (Nat.ne_of_gt hCount)
  exact ⟨by simp [List.replicate_succ], by simp [List.replicate_succ]⟩

theorem Unmarked.atDocumentMarker {cursor : Cursor} (hUnmarked : Unmarked cursor.rest) :
    cursor.atDocumentMarker = false := by
  have hMark : ∀ mark, cursor.rest.head? ≠ some mark → cursor.atMarker mark = false := by
    intro mark hHead
    rw [Cursor.atMarker, Bool.and_eq_false_iff]
    left
    rw [beq_eq_false_iff_ne]
    intro hTake
    have hFirst : (cursor.rest.take 3).head? = cursor.rest.head? := by
      cases cursor.rest <;> rfl
    rw [hTake] at hFirst
    exact hHead hFirst.symm
  rw [Cursor.atDocumentMarker, hMark '-' hUnmarked.1, hMark '.' hUnmarked.2]
  rfl

namespace Scalar

/-! ### Words -/

/-- A word of a plain scalar: it has no space, starts with no comment mark and ends with no colon.
-/
structure IsWord (word : List Char) : Prop where
  nonempty : word ≠ []
  inline : ∀ character ∈ word, Inline character
  unspaced : ' ' ∉ word
  start : word.head? ≠ some '#'
  ending : word.getLast? ≠ some ':'

theorem plainRunLength_append {word rest : List Char}
    (hInline : ∀ character ∈ word, Inline character) (hUnspaced : ' ' ∉ word)
    (hEnding : word.getLast? ≠ some ':') (hRest : plainRunLength false rest = 0) :
    plainRunLength false (word ++ rest) = word.length := by
  induction word with
  | nil => exact hRest
  | cons character word ih =>
      obtain ⟨hFirst, hInside⟩ := List.forall_mem_cons.mp hInline
      obtain ⟨hSpace, hOthers⟩ := not_or.mp (mt List.mem_cons.mpr hUnspaced)
      have hGap := hFirst.isGap (Ne.symm hSpace)
      have hEnds : endsPlainRun false character (word ++ rest).head? = false := by
        cases word with
        | nil =>
            have hColon : character ≠ ':' := fun hColon => hEnding (congrArg some hColon)
            simp [endsPlainRun, hGap, hColon]
        | cons second others =>
            have hSecond := hInside second List.mem_cons_self
            have hNext := hSecond.isGap (by rintro rfl; exact hOthers List.mem_cons_self)
            simp [endsPlainRun, hGap, hNext]
      have hLast : word.getLast? ≠ some ':' := by
        cases word with
        | nil => simp
        | cons second others => rwa [List.getLast?_cons_cons] at hEnding
      rw [List.cons_append, plainRunLength, hEnds, ih hInside hOthers hLast]
      rfl

theorem plainRunLength_of_gap {rest : List Char} (hGap : isGap rest.head? = true) :
    plainRunLength false rest = 0 := by
  cases rest with
  | nil => rfl
  | cons character others =>
      rw [List.head?_cons] at hGap
      simp [plainRunLength, endsPlainRun, hGap]

theorem IsWord.goesOn {word : List Char} (hWord : IsWord word) (rest : List Char) :
    GoesOn (word ++ rest) := by
  obtain ⟨character, others, rfl⟩ := List.exists_cons_of_ne_nil hWord.nonempty
  rintro first ⟨rfl⟩
  refine ⟨hWord.inline _ List.mem_cons_self, ?_⟩
  rintro rfl
  exact hWord.unspaced List.mem_cons_self

theorem IsWord.isAt_eq_false {word rest : List Char} (hWord : IsWord word) (cursor : Cursor)
    (hCursor : cursor.rest = word ++ rest) : cursor.isAt '#' = false := by
  obtain ⟨character, others, rfl⟩ := List.exists_cons_of_ne_nil hWord.nonempty
  have hStart := hWord.start
  rw [Cursor.isAt, Cursor.peek, hCursor]
  simpa using hStart

/-! ### Gaps between words -/

section Gaps

variable {index line column : Nat}

theorem plainBreaks_spaces {rest : List Char} (hRest : GoesOn rest) (count : Nat) {bound : Nat}
    (hBound : count < bound) :
    plainBreaks bound ⟨spaces count ++ rest, none, index, line, column⟩ =
      some ([], ⟨rest, none, index + count, line, column + count⟩) := by
  obtain ⟨bound, rfl⟩ := Nat.exists_eq_add_one_of_ne_zero (Nat.ne_of_gt (Nat.zero_lt_of_lt hBound))
  induction count generalizing bound index column with
  | zero =>
      cases rest with
      | nil => rfl
      | cons character others =>
          obtain ⟨hInline, hSpace⟩ := hRest character rfl
          simp [plainBreaks, Cursor.peek, hSpace, hInline.isBreak]
  | succ count ih =>
      obtain ⟨bound, rfl⟩ := Nat.exists_eq_add_one_of_ne_zero (show bound ≠ 0 by omega)
      rw [plainBreaks]
      simp only [spaces, List.replicate_succ, List.cons_append, Cursor.peek,
        List.getElem?_cons_zero, beq_self_eq_true, if_true]
      rw [Cursor.next_inline (by decide), ih _ (by omega)]
      simp only [Nat.add_assoc, Nat.add_comm 1]

/-- A line end with the indentation of the next line behind it. -/
theorem plainGap_lineEnd {rest : List Char} (hRest : GoesOn rest) {count : Nat}
    (hUnmarked : Unmarked (spaces count ++ rest)) :
    plainGap ⟨'\n' :: (spaces count ++ rest), none, index, line, column⟩ =
      ⟨[' '], ⟨rest, none, index + 1 + count, line + 1, count⟩, true⟩ := by
  have hNone : Cursor.takeWhile ⟨'\n' :: (spaces count ++ rest), none, index, line, column⟩
      (· == ' ') = ([], ⟨'\n' :: (spaces count ++ rest), none, index, line, column⟩) :=
    Cursor.takeWhile_none (by rintro _ ⟨rfl⟩; rfl)
  have hBreak : Cursor.lineBreak ⟨'\n' :: (spaces count ++ rest), none, index, line, column⟩ =
      (['\n'], ⟨spaces count ++ rest, none, index + 1, line + 1, 0⟩) := rfl
  have hMarker : Cursor.atDocumentMarker ⟨spaces count ++ rest, none, index + 1, line + 1, 0⟩ =
      false := hUnmarked.atDocumentMarker
  have hBreaks := @plainBreaks_spaces (index + 1) (line + 1) 0 rest hRest count
    ((spaces count ++ rest).length + 1)
    (by rw [List.length_append, List.length_replicate]; omega)
  rw [Nat.zero_add] at hBreaks
  simp only [plainGap, hNone, hBreak, hMarker, hBreaks]
  rfl

theorem plainGap_spaces {rest : List Char} (hRest : GoesOn rest) (count : Nat) :
    plainGap ⟨spaces count ++ rest, none, index, line, column⟩ =
      ⟨spaces count, ⟨rest, none, index + count, line, column + count⟩, false⟩ := by
  have hTaken := @Cursor.takeWhile_spaces none index line column rest count
    (fun hHead => (hRest ' ' hHead).2 rfl)
  simp only [plainGap, hTaken]
  cases rest with
  | nil => rfl
  | cons character others =>
      simp only [Cursor.peek, List.getElem?_cons_zero, (hRest character rfl).1.isBreak,
        Bool.false_eq_true, if_false]

end Gaps

/-! ### Layouts -/

/-- The layout of a plain scalar over lines, the later ones indented: its content, and how that is
written. -/
inductive PlainForm (indent : Nat) : List Char → List Char → Prop
  | word {word : List Char} (hWord : IsWord word) : PlainForm indent word word
  | spaced {word content written : List Char} (hWord : IsWord word) {count : Nat}
      (hCount : 0 < count) (hForm : PlainForm indent content written) :
      PlainForm indent (word ++ (spaces count ++ content)) (word ++ (spaces count ++ written))
  | folded {word content written : List Char} (hWord : IsWord word)
      (hForm : PlainForm indent content written) :
      PlainForm indent (word ++ ' ' :: content) (word ++ '\n' :: (spaces indent ++ written))

theorem PlainForm.startsWithWord {indent : Nat} {content written : List Char}
    (hForm : PlainForm indent content written) :
    ∃ word rest, IsWord word ∧ written = word ++ rest := by
  cases hForm with
  | word hWord => exact ⟨_, [], hWord, (List.append_nil _).symm⟩
  | spaced hWord _ _ => exact ⟨_, _, hWord, rfl⟩
  | folded hWord _ => exact ⟨_, _, hWord, rfl⟩

theorem PlainForm.inline {indent : Nat} {content written : List Char}
    (hForm : PlainForm indent content written) :
    ∀ character ∈ written, Inline character ∨ character = '\n' := by
  induction hForm with
  | word hWord => exact fun character hMember => .inl (hWord.inline character hMember)
  | spaced hWord _ _ ih =>
      intro character hMember
      simp only [List.mem_append] at hMember
      rcases hMember with hFirst | hGap | hLater
      · exact .inl (hWord.inline character hFirst)
      · exact .inl (inline_of_mem_spaces hGap)
      · exact ih character hLater
  | folded hWord _ ih =>
      intro character hMember
      simp only [List.mem_append, List.mem_cons] at hMember
      rcases hMember with hFirst | rfl | hIndent | hLater
      · exact .inl (hWord.inline character hFirst)
      · exact .inr rfl
      · exact .inl (inline_of_mem_spaces hIndent)
      · exact ih character hLater

section Reading

variable {index line column : Nat} {before : List Char} {newLine : Bool}

/-- Reading goes from one word to the gap behind it, and from there on. -/
theorem plainFrom_word {word rest : List Char} (hWord : IsWord word)
    (hRest : plainRunLength false rest = 0) (indent : Int) (bound : Nat) :
    plainFrom false indent (bound + 1) before newLine
        ⟨word ++ rest, none, index, line, column⟩ =
      let gap := plainGap ⟨rest, none, index + word.length, line, column + word.length⟩
      if gap.content.isEmpty || gap.cursor.isAt '#' || decide ((gap.cursor.column : Int) < indent)
      then ⟨before ++ word, gap.cursor, gap.crossedLine⟩
      else
        let more := plainFrom false indent bound gap.content gap.crossedLine gap.cursor
        ⟨before ++ word ++ more.content, more.cursor, more.newLine⟩ := by
  have hLength := plainRunLength_append hWord.inline hWord.unspaced hWord.ending hRest
  have hHash : Cursor.isAt ⟨word ++ rest, none, index, line, column⟩ '#' = false :=
    hWord.isAt_eq_false _ rfl
  have hSome : (word.length == 0) = false := by
    simpa using hWord.nonempty
  simp only [plainFrom, hHash, hLength, Cursor.advance_inline hWord.inline, hSome,
    List.take_left', Option.isSome_none, Bool.and_false, Bool.false_eq_true, if_false,
    Bool.not_false, Bool.true_and]

/-- Reading goes on behind a gap that leads to another word. -/
theorem plainFrom_gap {word next rest others gap : List Char} {least : Int} {crossed : Bool}
    {gapIndex gapLine gapColumn : Nat} (hWord : IsWord word) (hNext : IsWord next)
    (hRest : plainRunLength false rest = 0) (hSome : gap ≠ []) (hColumn : least ≤ gapColumn)
    (hGap : plainGap ⟨rest, none, index + word.length, line, column + word.length⟩ =
      ⟨gap, ⟨next ++ others, none, gapIndex, gapLine, gapColumn⟩, crossed⟩) (bound : Nat) :
    plainFrom false least (bound + 1) before newLine ⟨word ++ rest, none, index, line, column⟩ =
      let more := plainFrom false least bound gap crossed
        ⟨next ++ others, none, gapIndex, gapLine, gapColumn⟩
      ⟨before ++ word ++ more.content, more.cursor, more.newLine⟩ := by
  have hHash : Cursor.isAt ⟨next ++ others, none, gapIndex, gapLine, gapColumn⟩ '#' = false :=
    hNext.isAt_eq_false _ rfl
  have hEmpty : gap.isEmpty = false := by simpa using hSome
  have hInside : decide ((gapColumn : Int) < least) = false := by simpa using hColumn
  rw [plainFrom_word hWord hRest, hGap]
  simp only [hHash, hEmpty, hInside, Bool.or_false, Bool.false_eq_true, if_false]

/-- Reading a layout gives its content. It ends at a line that is indented less, of which the
indentation has been read. -/
theorem plainFrom_form {indent : Nat} {content written : List Char}
    (hForm : PlainForm indent content written) {least : Int} (hLeast : least ≤ indent)
    (hIndent : 0 < indent) {rest : List Char} (hRest : GoesOn rest) {outer : Nat}
    (hOuter : (outer : Int) < least) (hUnmarked : Unmarked (spaces outer ++ rest)) {bound : Nat}
    (hBound : written.length < bound) (hColumn : least ≤ column) :
    ∃ endIndex endLine,
      plainFrom false least bound before newLine
          ⟨written ++ '\n' :: (spaces outer ++ rest), none, index, line, column⟩ =
        ⟨before ++ content, ⟨rest, none, endIndex, endLine, outer⟩, true⟩ := by
  obtain ⟨bound, rfl⟩ := Nat.exists_eq_add_one_of_ne_zero (Nat.ne_of_gt (Nat.zero_lt_of_lt hBound))
  induction hForm generalizing bound before newLine index line column with
  | @word word hWord =>
      refine ⟨index + word.length + 1 + outer, line + 1, ?_⟩
      rw [plainFrom_word hWord (plainRunLength_of_gap rfl), plainGap_lineEnd hRest hUnmarked]
      simp [hOuter]
  | @spaced word content written hWord count hCount hForm ih =>
      obtain ⟨next, others, hNext, rfl⟩ := hForm.startsWithWord
      have hGap := @plainGap_spaces (index + word.length) line (column + word.length)
        (next ++ (others ++ '\n' :: (spaces outer ++ rest))) (hNext.goesOn _) count
      have hGapHead : isGap (spaces count ++ (next ++ (others ++ '\n' ::
          (spaces outer ++ rest)))).head? = true := by
        obtain ⟨count, rfl⟩ := Nat.exists_eq_add_one_of_ne_zero (Nat.ne_of_gt hCount)
        rfl
      have hWordLength := List.length_pos_iff.mpr hWord.nonempty
      simp only [List.length_append] at hBound
      obtain ⟨bound, rfl⟩ := Nat.exists_eq_add_one_of_ne_zero (show bound ≠ 0 by omega)
      obtain ⟨endIndex, endLine, hMore⟩ := @ih (index + word.length + count) line
        (column + word.length + count) (spaces count) false (by omega) bound
        (by rw [List.length_append]; omega)
      refine ⟨endIndex, endLine, ?_⟩
      rw [List.append_assoc] at hMore
      rw [List.append_assoc, List.append_assoc, List.append_assoc, plainFrom_gap hWord hNext
        (plainRunLength_of_gap hGapHead) (by simpa using Nat.ne_of_gt hCount) (by omega) hGap]
      simp only [hMore, List.append_assoc]
  | @folded word content written hWord hForm ih =>
      obtain ⟨next, others, hNext, rfl⟩ := hForm.startsWithWord
      have hGap := @plainGap_lineEnd (index + word.length) line (column + word.length)
        (next ++ (others ++ '\n' :: (spaces outer ++ rest))) (hNext.goesOn _) indent
        (unmarked_spaces hIndent _)
      have hWordLength := List.length_pos_iff.mpr hWord.nonempty
      simp only [List.length_append, List.length_cons] at hBound
      obtain ⟨bound, rfl⟩ := Nat.exists_eq_add_one_of_ne_zero (show bound ≠ 0 by omega)
      obtain ⟨endIndex, endLine, hMore⟩ := @ih (index + word.length + 1 + indent) (line + 1) indent
        [' '] true hLeast bound (by rw [List.length_append]; omega)
      refine ⟨endIndex, endLine, ?_⟩
      rw [List.append_assoc] at hMore
      rw [List.append_assoc, List.cons_append, List.append_assoc, List.append_assoc,
        plainFrom_gap hWord hNext (plainRunLength_of_gap rfl) (by simp) hLeast hGap]
      simp only [hMore, List.append_assoc, List.singleton_append]

/-- A word with a colon and a gap behind it, as a key is written, is read alone. -/
theorem plain_key {word rest : List Char} (hWord : IsWord word) (hRest : isGap rest.head? = true)
    (blockIndent : Int) :
    plain false blockIndent ⟨word ++ ':' :: rest, none, index, line, column⟩ =
      ⟨word, ⟨':' :: rest, none, index + word.length, line, column + word.length⟩, false⟩ := by
  have hColon : plainRunLength false (':' :: rest) = 0 := by
    simp [plainRunLength, endsPlainRun, hRest]
  have hGap := @plainGap_spaces (index + word.length) line (column + word.length) (':' :: rest)
    (by rintro _ ⟨rfl⟩; exact ⟨by decide, by decide⟩) 0
  rw [spaces, List.replicate_zero, List.nil_append] at hGap
  rw [plain, plainFrom_word hWord hColon, hGap]
  rfl

end Reading

end Scalar

end LogicSignature.Yaml
