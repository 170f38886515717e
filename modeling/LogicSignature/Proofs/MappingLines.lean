import LogicSignature.Proofs.WrittenScalars
import LogicSignature.Yaml.Token

/-
The tokens of block mappings.

A line of a mapping is a key and a colon, and then a text behind them or a deeper mapping below
them. From the start of one line the lexer comes to the start of the next, with the tokens of the
line added.
-/

namespace LogicSignature.Yaml.Lexer

open Scalar
open Writer (Written hasMark)

/-! ### Steps -/

/-- Reading goes from one lexer to another in some steps. -/
def Reaches (steps : Nat) (lexer next : Lexer) : Prop :=
  ∀ bound, run (bound + steps) lexer = run bound next

theorem Reaches.trans {first second : Nat} {lexer middle next : Lexer}
    (hFirst : Reaches first lexer middle) (hSecond : Reaches second middle next) :
    Reaches (second + first) lexer next := by
  intro bound
  rw [← Nat.add_assoc, hFirst, hSecond]

theorem dropStaleKeys_of_fresh {lexer : Lexer}
    (hFresh : ∀ key ∈ lexer.possibleKeys, isStale lexer.cursor key = false) :
    lexer.dropStaleKeys = .ok lexer := by
  have hNone : lexer.possibleKeys.any
      (fun key => isStale lexer.cursor key && key.required) = false := by
    rw [List.any_eq_false]
    intro key hKey
    simp [hFresh key hKey]
  have hAll : lexer.possibleKeys.filter (fun key => !isStale lexer.cursor key) =
      lexer.possibleKeys := by
    rw [List.filter_eq_self]
    intro key hKey
    simp [hFresh key hKey]
  rw [dropStaleKeys]
  simp only [hNone, hAll, Bool.false_eq_true, if_false]

/-- One step reads the token at the cursor, where no key is lost. -/
theorem reaches_token {lexer skipped unwound next : Lexer} {character : Char}
    (hSkip : skipToToken (lexer.cursor.rest.length + 1) lexer = skipped)
    (hBefore : ∀ key ∈ skipped.possibleKeys, isStale skipped.cursor key = false)
    (hUnwind : skipped.unwind skipped.cursor.column = unwound)
    (hCharacter : skipped.cursor.peek 0 = some character)
    (hRead : unwound.tokenAt character = .ok next) (hBeyond : next.cursor.beyond = none)
    (hAfter : ∀ key ∈ next.possibleKeys, isStale next.cursor key = false) :
    Reaches 1 lexer next := by
  have hSettle : next.settle = .ok next := by
    rw [settle, Cursor.beyondHere?, hBeyond, ite_self]
    exact dropStaleKeys_of_fresh hAfter
  have hStep : lexer.step = .ok (next, false) := by
    simp only [step, hSkip, hCharacter, dropStaleKeys_of_fresh hBefore, hUnwind, hRead, hSettle]
  intro bound
  simp only [run, hStep]

/-! ### Lexers at lines -/

/-- A lexer outside brackets that waits for no key. -/
def outside (cursor : Cursor) (tokens : List Token) (indent : Int) (indents : List Int)
    (keyAllowed : Bool) : Lexer :=
  ⟨cursor, tokens, tokens.length, 0, indent, indents, keyAllowed, []⟩

/-- A lexer comes to a line at a column: with these tokens, and inside these blocks, of which the
line may end some. -/
def AtLine (tokens : List Token) (indent : Int) (indents : List Int) (column : Nat)
    (rest : List Char) (lexer : Lexer) : Prop :=
  ∃ skipped index line, skipToToken (lexer.cursor.rest.length + 1) lexer = skipped ∧
    skipped.cursor = ⟨rest, none, index, line, column⟩ ∧ skipped.possibleKeys = [] ∧
    skipped.unwind column =
      (outside ⟨rest, none, index, line, column⟩ tokens indent indents true).unwind column

section Lines

variable {index line column : Nat} {tokens : List Token} {indent : Int} {indents : List Int}
  {keyAllowed : Bool} {rest : List Char}

theorem unwind_of_le {lexer : Lexer} {least : Int} (hLeast : lexer.indent ≤ least) :
    lexer.unwind least = lexer := by
  rw [unwind, ite_eq_left_iff]
  intro _
  cases lexer.indents with
  | nil => rfl
  | cons outer others => exact if_neg (Int.not_lt.mpr hLeast)

/-- A line that stands in front of a block ends it. -/
theorem AtLine.close {outer : Int} {lexer : Lexer}
    (hLine : AtLine tokens indent (outer :: indents) column rest lexer)
    (hColumn : (column : Int) < indent) :
    AtLine (.blockEnd :: tokens) outer indents column rest lexer := by
  obtain ⟨skipped, index, line, hSkip, hCursor, hKeys, hUnwind⟩ := hLine
  exact ⟨skipped, index, line, hSkip, hCursor, hKeys, hUnwind.trans (if_pos hColumn)⟩

theorem skipSpaces_spaces (count : Nat) (hRest : GoesOn rest) :
    Cursor.skipSpaces ⟨spaces count ++ rest, none, index, line, column⟩ =
      ⟨rest, none, index + count, line, column + count⟩ := by
  have hHead : rest.head? ≠ some ' ' := fun hSpace => (hRest ' ' hSpace).2 rfl
  rw [Cursor.skipSpaces, Cursor.skipWhile, Cursor.takeWhile_spaces count hHead]

theorem lineBreak_goesOn (hRest : GoesOn rest) :
    Cursor.lineBreak ⟨rest, none, index, line, column⟩ =
      ([], ⟨rest, none, index, line, column⟩) := by
  cases rest with
  | nil => rfl
  | cons character others =>
      have hInline := (hRest character rfl).1
      have hReturn := hInline.ne (show ¬ Inline '\r' by decide)
      have hSeparators : (character == '\u2028' || character == '\u2029') = false := by
        simp [hInline.ne (show ¬ Inline '\u2028' by decide),
          hInline.ne (show ¬ Inline '\u2029' by decide)]
      rw [Cursor.lineBreak]
      split
      case h_1 hStart =>
        cases hStart
        exact absurd rfl hReturn
      case h_2 hStart =>
        cases hStart
        rw [hSeparators, hInline.isBreak]
        rfl
      case h_3 hStart => cases hStart

theorem skipToToken_text {lexer : Lexer} {count : Nat}
    (hCursor : lexer.cursor = ⟨spaces count ++ rest, none, index, line, column⟩)
    (hRest : GoesOn rest) (hComment : rest.head? ≠ some '#') (bound : Nat) :
    skipToToken (bound + 1) lexer =
      { lexer with cursor := ⟨rest, none, index + count, line, column + count⟩ } := by
  have hHash : Cursor.isAt ⟨rest, none, index + count, line, column + count⟩ '#' = false := by
    rw [Cursor.isAt, Cursor.peek, ← List.head?_eq_getElem?, beq_eq_false_iff_ne]
    exact hComment
  simp only [skipToToken, hCursor, skipSpaces_spaces count hRest, hHash, lineBreak_goesOn hRest,
    Bool.false_eq_true, if_false]

theorem skipToToken_lineEnd {lexer : Lexer} {count : Nat}
    (hCursor : lexer.cursor = ⟨'\n' :: (spaces count ++ rest), none, index, line, column⟩)
    (hRest : GoesOn rest) (hComment : rest.head? ≠ some '#') (bound : Nat) :
    skipToToken (bound + 2) lexer =
      { lexer with
        cursor := ⟨rest, none, index + 1 + count, line + 1, count⟩
        keyAllowed := lexer.keyAllowed || !lexer.inFlow } := by
  have hSpaces : Cursor.skipSpaces ⟨'\n' :: (spaces count ++ rest), none, index, line, column⟩ =
      ⟨'\n' :: (spaces count ++ rest), none, index, line, column⟩ := rfl
  have hHash : Cursor.isAt ⟨'\n' :: (spaces count ++ rest), none, index, line, column⟩ '#' =
      false := rfl
  have hBreak : Cursor.lineBreak ⟨'\n' :: (spaces count ++ rest), none, index, line, column⟩ =
      (['\n'], ⟨spaces count ++ rest, none, index + 1, line + 1, 0⟩) := rfl
  rw [skipToToken]
  simp only [hCursor, hSpaces, hHash, hBreak, Bool.false_eq_true, if_false]
  rw [skipToToken_text rfl hRest hComment, Nat.zero_add]

/-- What a line can start with: text that is neither a comment nor a document marker, or nothing. -/
structure StartsLine (rest : List Char) : Prop where
  goesOn : GoesOn rest
  uncommented : rest.head? ≠ some '#'
  unmarked : Unmarked rest

theorem startsLine_nil : StartsLine [] :=
  ⟨by rintro _ ⟨⟩, by simp, by simp [Unmarked]⟩

theorem StartsLine.unmarked_indented (hRest : StartsLine rest) (count : Nat) :
    Unmarked (spaces count ++ rest) := by
  cases count with
  | zero => exact hRest.unmarked
  | succ count => exact unmarked_spaces (Nat.succ_pos count) rest

/-- At the end of a line the next line is ahead. -/
theorem atLine_lineEnd (hRest : StartsLine rest) (count : Nat) :
    AtLine tokens indent indents count rest
      (outside ⟨'\n' :: (spaces count ++ rest), none, index, line, column⟩ tokens indent indents
        keyAllowed) := by
  refine ⟨outside ⟨rest, none, index + 1 + count, line + 1, count⟩ tokens indent indents true,
    index + 1 + count, line + 1, ?_, rfl, rfl, rfl⟩
  refine (skipToToken_lineEnd rfl hRest.goesOn hRest.uncommented
    (spaces count ++ rest).length).trans ?_
  rw [show (outside ⟨'\n' :: (spaces count ++ rest), none, index, line, column⟩ tokens indent
    indents keyAllowed).inFlow = false from rfl, Bool.not_false, Bool.or_true]
  rfl

theorem atLine_here (hRest : StartsLine rest) :
    AtLine tokens indent indents column rest
      (outside ⟨rest, none, index, line, column⟩ tokens indent indents true) :=
  ⟨_, index, line, @skipToToken_text index line column rest _ 0 rfl hRest.goesOn
    hRest.uncommented rest.length, rfl, rfl, rfl⟩

end Lines

/-! ### Texts -/

/-- Of what stands behind the start of a text, only whether it is a gap matters. -/
theorem startsPlain_congr {character : Char} {following other : Option Char}
    (hGap : isGap following = isGap other) :
    startsPlain false character following = startsPlain false character other := by
  rw [startsPlain, startsPlain, hGap]

theorem ne_of_startsPlain {character mark : Char} {following : Option Char}
    (hStart : startsPlain false character following = true)
    (hMark : mark ∈ ",[]\x7b\x7d#&*!|>%@`\x27\x22".toList) : (character == mark) = false := by
  have hNever : ",[]\x7b\x7d#&*!|>%@`\x27\x22".toList.all (fun mark =>
      !startsPlain false mark none && !startsPlain false mark (some 'x')) = true := by decide
  obtain ⟨hBare, hFollowed⟩ :=
    Bool.and_eq_true_iff.mp (List.all_eq_true.mp hNever mark hMark)
  rw [beq_eq_false_iff_ne]
  rintro rfl
  cases hGap : isGap following with
  | true =>
      rw [← @startsPlain_congr character following none hGap, hStart] at hBare
      cases hBare
  | false =>
      rw [← @startsPlain_congr character following (some 'x') hGap, hStart] at hFollowed
      cases hFollowed

/-- A mark of an entry starts a text only where more of the text stands directly behind it. -/
theorem gap_of_startsPlain {character mark : Char} {following : Option Char}
    (hStart : startsPlain false character following = true) (hMark : mark ∈ ['-', '?', ':']) :
    (character == mark && isGap following) = false := by
  cases hGap : isGap following with
  | false => exact Bool.and_false _
  | true =>
      rw [startsPlain, hGap] at hStart
      rw [Bool.and_true, beq_eq_false_iff_ne]
      rintro rfl
      simp only [List.mem_cons, List.not_mem_nil, or_false] at hMark
      rcases hMark with rfl | rfl | rfl
      · cases hStart
      · cases hStart
      · cases hStart

/-- Where a text can start without quotes, the lexer reads one. -/
theorem tokenAt_of_startsPlain {lexer : Lexer} {character : Char}
    (hFlow : lexer.inFlow = false)
    (hStart : startsPlain false character (lexer.cursor.peek 1) = true)
    (hMark : lexer.cursor.column ≠ 0 ∨
      character ≠ '-' ∧ character ≠ '.' ∧ lexer.cursor.atDocumentMarker = false) :
    lexer.tokenAt character = lexer.plainToken := by
  have hMarks : (lexer.cursor.column == 0 && (character == '-' || character == '.')) = false ∧
      (lexer.cursor.column == 0 && lexer.cursor.atMarker '-') = false ∧
      (lexer.cursor.column == 0 && lexer.cursor.atMarker '.') = false := by
    rcases hMark with hColumn | ⟨hDash, hPoint, hMarker⟩
    · simp [hColumn]
    · obtain ⟨hStarts, hEnds⟩ := Bool.or_eq_false_iff.mp hMarker
      simp [hDash, hPoint, hStarts, hEnds]
  have hNe := fun mark => @ne_of_startsPlain character mark _ hStart
  rw [tokenAt]
  simp only [hMarks, hFlow, hStart, hNe '%' (by decide), hNe '[' (by decide),
    hNe '\x7b' (by decide), hNe ']' (by decide), hNe '\x7d' (by decide), hNe ',' (by decide),
    hNe '*' (by decide), hNe '&' (by decide), hNe '!' (by decide), hNe '|' (by decide),
    hNe '>' (by decide), hNe '\x27' (by decide), hNe '\x22' (by decide),
    gap_of_startsPlain hStart (show '-' ∈ ['-', '?', ':'] by decide),
    gap_of_startsPlain hStart (show '?' ∈ ['-', '?', ':'] by decide),
    gap_of_startsPlain hStart (show ':' ∈ ['-', '?', ':'] by decide), Bool.false_and,
    Bool.false_or, Bool.false_eq_true, if_false, if_true]

/-- A word without marks can start a text. -/
theorem startsPlain_of_hasMark {word after : List Char} (hWord : IsWord word)
    (hMark : hasMark (Text.ofChars (word ++ after)) = false)
    (hAfter : ∀ next ∈ after.head?, next = ' ') (behind : List Char) :
    ∃ first others, word = first :: others ∧
      startsPlain false first (others ++ behind).head? = true := by
  obtain ⟨first, others, rfl⟩ := List.exists_cons_of_ne_nil hWord.nonempty
  refine ⟨first, others, rfl, ?_⟩
  have hGap : ∀ character ∈ first :: others, isGap (some character) = false := by
    intro character hMember
    refine (hWord.inline character hMember).isGap ?_
    rintro rfl
    exact hWord.unspaced hMember
  obtain ⟨hLeading, hEntryMark⟩ :=
    Bool.or_eq_false_iff.mp (Writer.marksStart_of_hasMark hMark)
  have hEntryMarks : ['?', ':', '-'].all (fun mark =>
      CodePoint.char mark == '?' || CodePoint.char mark == ':' || CodePoint.char mark == '-') =
        true := rfl
  have hFollowed (hEntry : first ∈ ['?', ':', '-']) :
      ((Text.ofChars (others ++ after)).head?.map Writer.separates).getD true = false := by
    rw [List.all_eq_true.mp hEntryMarks first hEntry] at hEntryMark
    exact hEntryMark
  rw [startsPlain, hGap first List.mem_cons_self]
  by_cases hEntry : first ∈ ['?', ':', '-']
  · -- Directly behind the mark the word goes on.
    cases others with
    | nil =>
        have hSeparated := hFollowed hEntry
        cases after with
        | nil => cases hSeparated
        | cons next _ =>
            rw [hAfter next rfl] at hSeparated
            cases hSeparated
    | cons second more =>
        rw [List.cons_append, List.head?_cons,
          hGap second (List.mem_cons_of_mem _ List.mem_cons_self)]
        have hAny : ['?', ':', '-'].all (fun mark =>
            mark == '-' || (!false && (mark == '?' || mark == ':'))) = true := rfl
        rw [List.all_eq_true.mp hAny first hEntry, Bool.not_false, Bool.true_and, Bool.or_true]
  · have hMarks : "-?:,[]\x7b\x7d#&*!|>%@`\x27\x22".toList.all (fun mark =>
        decide (mark ∈ ['?', ':', '-']) || Writer.leadingMarks.contains (.char mark)) = true := by
      decide
    have hOther : first ∉ "-?:,[]\x7b\x7d#&*!|>%@`\x27\x22".toList := by
      intro hMember
      have hSame := List.all_eq_true.mp hMarks first hMember
      rw [hLeading, Bool.or_false] at hSame
      exact hEntry (of_decide_eq_true hSame)
    simp at hOther
    simp [hOther]

/-! ### Keys -/

theorem uncommented_word {word : List Char} (hWord : IsWord word) (rest : List Char) :
    (word ++ rest).head? ≠ some '#' := by
  rw [List.head?_append_of_ne_nil _ hWord.nonempty]
  exact hWord.start

/-- A word that can be written as the key of a mapping. -/
structure IsKey (word : List Char) : Prop where
  isWord : IsWord word
  unmarked : hasMark (Text.ofChars word) = false
  start : Unmarked word
  short : word.length ≤ maxKeyLength

theorem IsKey.startsLine {word : List Char} (hKey : IsKey word) (rest : List Char) :
    StartsLine (word ++ rest) := by
  refine ⟨hKey.isWord.goesOn rest, uncommented_word hKey.isWord rest, ?_⟩
  rw [Unmarked, List.head?_append_of_ne_nil _ hKey.isWord.nonempty]
  exact hKey.start

/-- The tokens once a key at a column has opened its mapping, if it has to. -/
def openedTokens (indent : Int) (column : Nat) (tokens : List Token) : List Token :=
  if indent < column then .blockMappingStart :: tokens else tokens

/-- The outer blocks once a key at a column has opened its mapping. -/
def openedIndents (indent : Int) (column : Nat) (indents : List Int) : List Int :=
  if indent < column then indent :: indents else indents

section Keys

variable {index line column : Nat} {tokens : List Token} {indent : Int} {indents : List Int}
  {rest word : List Char}

/-- Behind the word of a key, the lexer waits for the colon. -/
def behindKey (word : List Char) (cursor : Cursor) (tokens : List Token) (indent : Int)
    (indents : List Int) (index column : Nat) : Lexer :=
  ⟨cursor, .scalar (Text.ofChars word) true :: tokens, tokens.length + 1, 0, indent, indents, false,
    [⟨0, tokens.length, decide (indent = column), index, cursor.line, column⟩]⟩

theorem isStale_behindKey (hKey : IsKey word) (tokens : List Token) (indent : Int)
    (indents : List Int) :
    let lexer := behindKey word
      ⟨':' :: rest, none, index + word.length, line, column + word.length⟩ tokens indent indents
      index column
    ∀ key ∈ lexer.possibleKeys, isStale lexer.cursor key = false := by
  intro lexer key hMember
  rw [List.mem_singleton.mp hMember, isStale, Bool.or_eq_false_iff]
  have hShort := hKey.short
  constructor
  · simp [lexer, behindKey]
  · rw [decide_eq_false_iff_not]
    simp only [lexer, behindKey]
    omega

/-- The word of a key is read up to its colon. -/
theorem reaches_keyWord (hKey : IsKey word) (hRest : isGap rest.head? = true) {lexer : Lexer}
    (hLine : AtLine tokens indent indents column (word ++ ':' :: rest) lexer)
    (hColumn : indent ≤ column) :
    ∃ index line, Reaches 1 lexer (behindKey word
      ⟨':' :: rest, none, index + word.length, line, column + word.length⟩ tokens indent indents
      index column) := by
  obtain ⟨skipped, index, line, hSkip, hCursor, hKeys, hUnwind⟩ := hLine
  rw [unwind_of_le (show (outside _ tokens indent indents true).indent ≤ column from hColumn)]
    at hUnwind
  obtain ⟨first, others, hFirst, hStart⟩ := startsPlain_of_hasMark hKey.isWord
    (by rw [List.append_nil]; exact hKey.unmarked) (by rintro _ ⟨⟩) (':' :: rest)
  have hHead : word ++ ':' :: rest = first :: (others ++ ':' :: rest) := by
    rw [hFirst]
    rfl
  have hNoted : (outside ⟨word ++ ':' :: rest, none, index, line, column⟩ tokens indent indents
      true).noteKey = .ok ⟨⟨word ++ ':' :: rest, none, index, line, column⟩, tokens, tokens.length,
        0, indent, indents, true,
        [⟨0, tokens.length, decide (indent = column), index, line, column⟩]⟩ := rfl
  have hUnmarked := (hKey.startsLine (':' :: rest)).unmarked
  have hRead : (outside ⟨word ++ ':' :: rest, none, index, line, column⟩ tokens indent indents
      true).tokenAt first = .ok (behindKey word
        ⟨':' :: rest, none, index + word.length, line, column + word.length⟩ tokens indent indents
        index column) := by
    rw [tokenAt_of_startsPlain rfl]
    · rw [plainToken, hNoted]
      simp only [inFlow, bne_self_eq_false, plain_key hKey.isWord hRest]
      rfl
    · rwa [outside, Cursor.peek, hHead, List.getElem?_cons_succ, ← List.head?_eq_getElem?]
    · refine .inr ⟨?_, ?_, Unmarked.atDocumentMarker hUnmarked⟩
      · rintro rfl
        exact hUnmarked.1 (by rw [hHead, List.head?_cons])
      · rintro rfl
        exact hUnmarked.2 (by rw [hHead, List.head?_cons])
  refine ⟨index, line, reaches_token hSkip ?_ (hUnwind ▸ by rw [hCursor]) ?_ hRead rfl
    (isStale_behindKey hKey tokens indent indents)⟩
  · rw [hKeys]
    exact List.forall_mem_nil _
  · rw [hCursor, Cursor.peek, hHead]
    rfl

theorem tokenAt_colon {lexer : Lexer} (hColumn : lexer.cursor.column ≠ 0)
    (hGap : isGap (lexer.cursor.peek 1) = true) : lexer.tokenAt ':' = lexer.valueMark := by
  have hStart : (lexer.cursor.column == 0) = false := beq_eq_false_iff_ne.mpr hColumn
  rw [tokenAt]
  simp only [hStart, hGap, Bool.and_false, Bool.false_and, Bool.or_true, Bool.and_true,
    Bool.false_eq_true, if_false, Char.reduceBEq, if_true]

theorem valueMark_behindKey (hColumn : indent ≤ column) (cursor : Cursor) :
    (behindKey word cursor tokens indent indents index column).valueMark =
      .ok (outside (cursor.advance 1)
        (.value :: .scalar (Text.ofChars word) true :: .key :: openedTokens indent column tokens)
        column (openedIndents indent column indents) false) := by
  have hFound : (behindKey word cursor tokens indent indents index column).possibleKey? =
      some ⟨0, tokens.length, decide (indent = column), index, cursor.line, column⟩ := rfl
  have hKeyed : ((behindKey word cursor tokens indent indents index column).withoutKey.insert
      tokens.length .key) = ⟨cursor, .scalar (Text.ofChars word) true :: .key :: tokens,
        tokens.length + 2, 0, indent, indents, false, []⟩ := by
    simp [behindKey, withoutKey, insert]
  simp only [valueMark, hFound, hKeyed]
  by_cases hOpen : indent < column
  · simp [inFlow, openBlock?, hOpen, insert, openedTokens, openedIndents, single, advance, push,
      outside]
  · have hSame : indent = column := by omega
    simp [inFlow, openBlock?, openedTokens, openedIndents, single, advance, push, outside, hSame]

/-- At the colon, the key is known to be one. -/
theorem reaches_keyColon (hKey : IsKey word) (hRest : isGap rest.head? = true)
    (hColumn : indent ≤ column) :
    Reaches 1 (behindKey word ⟨':' :: rest, none, index + word.length, line,
        column + word.length⟩ tokens indent indents index column)
      (outside ⟨rest, none, index + word.length + 1, line, column + word.length + 1⟩
        (.value :: .scalar (Text.ofChars word) true :: .key :: openedTokens indent column tokens)
        column (openedIndents indent column indents) false) := by
  have hLength := List.length_pos_iff.mpr hKey.isWord.nonempty
  have hSkip := @skipToToken_text (index + word.length) line (column + word.length) (':' :: rest)
    (behindKey word ⟨':' :: rest, none, index + word.length, line, column + word.length⟩ tokens
      indent indents index column) 0 rfl (by rintro _ ⟨rfl⟩; exact ⟨by decide, by decide⟩)
    (by simp) (rest.length + 1)
  have hFresh := @isStale_behindKey index line column rest word hKey tokens indent indents
  refine reaches_token hSkip hFresh (unwind_of_le ?_) rfl ?_ rfl (List.forall_mem_nil _)
  · show indent ≤ ((column + word.length + 0 : Nat) : Int)
    omega
  · refine (tokenAt_colon ?_ ?_).trans ?_
    · show column + word.length + 0 ≠ 0
      omega
    · rw [List.head?_eq_getElem?] at hRest
      exact hRest
    · exact valueMark_behindKey hColumn _

/-- A key is read with its colon, and opens its mapping if it has to. -/
theorem reaches_key (hKey : IsKey word) (hRest : isGap rest.head? = true) {lexer : Lexer}
    (hLine : AtLine tokens indent indents column (word ++ ':' :: rest) lexer)
    (hColumn : indent ≤ column) :
    ∃ index line, Reaches 2 lexer
      (outside ⟨rest, none, index, line, column + word.length + 1⟩
        (.value :: .scalar (Text.ofChars word) true :: .key :: openedTokens indent column tokens)
        column (openedIndents indent column indents) false) := by
  obtain ⟨index, line, hWord⟩ := reaches_keyWord hKey hRest hLine hColumn
  exact ⟨_, line, hWord.trans (reaches_keyColon hKey hRest hColumn)⟩

end Keys

/-! ### Texts behind keys -/

section Values

variable {index line column outer valueIndent : Nat} {tokens : List Token} {indent : Int}
  {indents : List Int} {rest : List Char}

theorem startsPlain_of_form {content written : List Char}
    (hForm : PlainForm valueIndent content written)
    (hMark : hasMark (Text.ofChars content) = false) (behind : List Char) :
    ∃ first others, written ++ behind = first :: others ∧
      startsPlain false first others.head? = true := by
  cases hForm with
  | word hWord =>
      obtain ⟨first, others, rfl, hStart⟩ := startsPlain_of_hasMark hWord
        (by rwa [List.append_nil]) (by rintro _ ⟨⟩) behind
      exact ⟨first, others ++ behind, rfl, hStart⟩
  | @spaced word content written hWord count hCount _ =>
      obtain ⟨first, others, rfl, hStart⟩ := startsPlain_of_hasMark hWord hMark
        (by
          obtain ⟨count, rfl⟩ := Nat.exists_eq_add_one_of_ne_zero (Nat.ne_of_gt hCount)
          rintro _ ⟨rfl⟩
          rfl)
        (spaces count ++ written ++ behind)
      exact ⟨first, _, by simp, hStart⟩
  | @folded word content written hWord _ =>
      obtain ⟨first, others, rfl, hStart⟩ := startsPlain_of_hasMark hWord hMark
        (by rintro _ ⟨rfl⟩; rfl) ('\n' :: (spaces valueIndent ++ written) ++ behind)
      exact ⟨first, _, by simp, hStart⟩

theorem noteKey_outside (cursor : Cursor) :
    (outside cursor tokens indent indents false).noteKey =
      .ok (outside cursor tokens indent indents false) := rfl

/-- Behind a space, one step reads the token of a text. -/
theorem reaches_value {first : Char} {others : List Char} (hGoesOn : GoesOn (first :: others))
    (hComment : first ≠ '#') (hColumn : indent ≤ column) {next : Lexer}
    (hRead : (outside ⟨first :: others, none, index + 1, line, column + 1⟩ tokens indent indents
      false).tokenAt first = .ok next) (hBeyond : next.cursor.beyond = none)
    (hKeys : next.possibleKeys = []) :
    Reaches 1
      (outside ⟨' ' :: first :: others, none, index, line, column⟩ tokens indent indents false)
      next := by
  have hSkip := @skipToToken_text index line column (first :: others)
    (outside ⟨' ' :: first :: others, none, index, line, column⟩ tokens indent indents false) 1 rfl
    hGoesOn (by simpa using hComment) (others.length + 2)
  refine reaches_token hSkip (List.forall_mem_nil _) (unwind_of_le ?_) rfl hRead hBeyond ?_
  · show indent ≤ ((column + 1 : Nat) : Int)
    omega
  · rw [hKeys]
    exact List.forall_mem_nil _

/-- A text without quotes is read up to the start of the next line. -/
theorem reaches_plain {content written : List Char} (hForm : PlainForm valueIndent content written)
    (hMark : hasMark (Text.ofChars content) = false) (hIndent : 0 < valueIndent)
    (hDeeper : indent < valueIndent) (hOuter : (outer : Int) ≤ indent) (hColumn : indent ≤ column)
    (hRest : StartsLine rest) :
    ∃ endIndex endLine,
      Reaches 1
        (outside ⟨' ' :: (written ++ '\n' :: (spaces outer ++ rest)), none, index, line, column⟩
          tokens indent indents false)
        (outside ⟨rest, none, endIndex, endLine, outer⟩
          (.scalar (Text.ofChars content) true :: tokens) indent indents true) := by
  obtain ⟨first, others, hFirst, hStart⟩ := startsPlain_of_form hForm hMark
    ('\n' :: (spaces outer ++ rest))
  obtain ⟨word, more, hWord, hWritten⟩ := hForm.startsWithWord
  obtain ⟨endIndex, endLine, hPlain⟩ := @plainFrom_form (index + 1) line (column + 1) [] false
    valueIndent content written hForm (indent + 1) hDeeper hIndent rest hRest.goesOn outer
    (by omega) (hRest.unmarked_indented outer) ((first :: others).length + 1)
    (by rw [← hFirst, List.length_append]; omega) (by push_cast; omega)
  rw [hFirst] at hPlain ⊢
  have hWhole : first :: others = word ++ (more ++ '\n' :: (spaces outer ++ rest)) := by
    rw [← hFirst, hWritten, List.append_assoc]
  refine ⟨endIndex, endLine, reaches_value ?_ ?_ hColumn ?_ rfl rfl⟩
  · rw [hWhole]
    exact hWord.goesOn _
  · rintro rfl
    apply uncommented_word hWord (more ++ '\n' :: (spaces outer ++ rest))
    rw [← hWhole, List.head?_cons]
  · rw [tokenAt_of_startsPlain rfl]
    · have hPlain : Scalar.plain false indent
          ⟨first :: others, none, index + 1, line, column + 1⟩ = _ := hPlain
      rw [plainToken, noteKey_outside]
      simp only [inFlow, outside, bne_self_eq_false, hPlain]
      rfl
    · rw [List.head?_eq_getElem?] at hStart
      exact hStart
    · exact .inl (Nat.succ_ne_zero column)

/-- A text between quotes is read up to the end of its line. -/
theorem reaches_quoted {content : Text} {double : Bool} {body behind : List Char}
    (hForm : BodyForm valueIndent double content body) (hIndent : 0 < valueIndent)
    (hColumn : indent ≤ column) (hBehind : behind.head? ≠ some '\x27') :
    ∃ endIndex endLine endColumn,
      Reaches 1
        (outside ⟨' ' :: quoteMark double :: (body ++ quoteMark double :: behind), none, index,
          line, column⟩ tokens indent indents false)
        (outside ⟨behind, none, endIndex, endLine, endColumn⟩ (.scalar content false :: tokens)
          indent indents false) := by
  obtain ⟨endIndex, endLine, endColumn, hQuoted⟩ : Reads (quoted double
      ⟨quoteMark double :: (body ++ quoteMark double :: behind), none, index + 1, line,
        column + 1⟩) content behind := quoted_form hIndent hForm hBehind
  refine ⟨endIndex, endLine, endColumn, reaches_value (goesOn_quoteMark _) ?_ hColumn ?_ rfl rfl⟩
  · cases double <;> decide
  · have hToken : (outside ⟨quoteMark double :: (body ++ quoteMark double :: behind), none,
        index + 1, line, column + 1⟩ tokens indent indents false).tokenAt (quoteMark double) =
        (outside ⟨quoteMark double :: (body ++ quoteMark double :: behind), none,
          index + 1, line, column + 1⟩ tokens indent indents false).keyStart
          (quotedToken double) := by
      cases double <;> rfl
    rw [hToken, keyStart, noteKey_outside]
    simp only [quotedToken, outside, hQuoted]
    rfl

/-- A text behind a key is read, and the next line is ahead. -/
theorem reaches_written {content : Text} {isPlain : Bool} {written : List Char}
    (hWritten : Written valueIndent content isPlain written) (hIndent : 0 < valueIndent)
    (hDeeper : indent < valueIndent) (hOuter : (outer : Int) ≤ indent) (hColumn : indent ≤ column)
    (hRest : StartsLine rest) :
    ∃ next,
      Reaches 1
        (outside ⟨' ' :: (written ++ '\n' :: (spaces outer ++ rest)), none, index, line, column⟩
          tokens indent indents false) next ∧
      AtLine (.scalar content isPlain :: tokens) indent indents outer rest next := by
  cases hWritten with
  | plain hForm hMark _ =>
      obtain ⟨endIndex, endLine, hReaches⟩ :=
        reaches_plain hForm hMark hIndent hDeeper hOuter hColumn hRest
      exact ⟨_, hReaches, atLine_here hRest⟩
  | @quoted _ double body hForm =>
      have hEnd : ('\n' :: (spaces outer ++ rest)).head? ≠ some '\x27' := by simp
      obtain ⟨endIndex, endLine, endColumn, hReaches⟩ :=
        reaches_quoted hForm hIndent hColumn hEnd
      rw [List.cons_append, List.append_assoc, List.singleton_append]
      exact ⟨_, hReaches, atLine_lineEnd hRest outer⟩

end Values

/-! ### Whole lines -/

section WholeLines

variable {column outer valueIndent : Nat} {tokens : List Token} {indent : Int}
  {indents : List Int} {rest word : List Char} {lexer : Lexer}

/-- A key with a deeper line below it. -/
theorem reaches_header (hKey : IsKey word)
    (hLine : AtLine tokens indent indents column (word ++ ':' :: '\n' :: (spaces outer ++ rest))
      lexer) (hColumn : indent ≤ column) (hRest : StartsLine rest) :
    ∃ next, Reaches 2 lexer next ∧
      AtLine
        (.value :: .scalar (Text.ofChars word) true :: .key :: openedTokens indent column tokens)
        column (openedIndents indent column indents) outer rest next := by
  obtain ⟨index, line, hReaches⟩ := reaches_key hKey rfl hLine hColumn
  exact ⟨_, hReaches, atLine_lineEnd hRest outer⟩

/-- A key with a text behind it. -/
theorem reaches_entry (hKey : IsKey word) {content : Text} {isPlain : Bool} {written : List Char}
    (hWritten : Written valueIndent content isPlain written)
    (hLine : AtLine tokens indent indents column
      (word ++ ':' :: ' ' :: (written ++ '\n' :: (spaces outer ++ rest))) lexer)
    (hColumn : indent ≤ column) (hDeeper : column < valueIndent) (hOuter : outer ≤ column)
    (hRest : StartsLine rest) :
    ∃ next, Reaches 3 lexer next ∧
      AtLine (.scalar content isPlain :: .value :: .scalar (Text.ofChars word) true :: .key ::
        openedTokens indent column tokens) column (openedIndents indent column indents) outer rest
        next := by
  have hBehind : (column : Int) ≤ (column + word.length + 1 : Nat) := by omega
  obtain ⟨index, line, hKeyed⟩ := reaches_key hKey rfl hLine hColumn
  obtain ⟨next, hReaches, hNext⟩ := reaches_written hWritten (Nat.zero_lt_of_lt hDeeper)
    (Int.ofNat_lt.mpr hDeeper) (Int.ofNat_le.mpr hOuter) hBehind hRest
  exact ⟨next, hKeyed.trans hReaches, hNext⟩

/-- At the end of the text, the outermost block ends. -/
theorem run_of_atLine_end (hLine : AtLine tokens 0 [-1] 0 [] lexer) (bound : Nat) :
    run (bound + 1) lexer = (.streamEnd :: .blockEnd :: tokens).reverse := by
  obtain ⟨skipped, index, line, hSkip, hCursor, hKeys, hUnwind⟩ := hLine
  have hNone : skipped.cursor.peek 0 = none := by
    rw [hCursor]
    rfl
  have hFresh : skipped.dropStaleKeys = .ok skipped := by
    apply dropStaleKeys_of_fresh
    rw [hKeys]
    exact List.forall_mem_nil _
  have hStep : lexer.step = .ok ((outside ⟨[], none, index, line, 0⟩ (.blockEnd :: tokens) (-1) []
      false).push .streamEnd, true) := by
    have hBeyond : skipped.cursor.beyond = none := by rw [hCursor]
    have hUnwound : skipped.unwind skipped.cursor.column =
        outside ⟨[], none, index, line, 0⟩ tokens 0 [-1] true := by
      rw [hCursor]
      exact hUnwind
    simp only [step, hSkip, hNone, hBeyond, hFresh, hUnwound]
    rfl
  simp only [run, hStep]
  rfl

end WholeLines

end LogicSignature.Yaml.Lexer
