import Mathlib.Data.List.SplitBy
import LogicSignature.Proofs.QuotedScalars
import LogicSignature.Yaml.Writer

/-
The runs of a text.

A text is written run by run: spaces, line ends, or words of other characters. Where a text can do
without escapes, spaces and line ends do not meet, so that words and gaps alternate.
-/

namespace LogicSignature.Yaml.Writer

open Scalar

/-- The kinds of code points that stand together in a run. -/
def runKind (point : CodePoint) : Nat :=
  if isSpace point then 0 else if endsLine point then 1 else 2

/-- Words and gaps in turn, from a word on or from a gap on. -/
inductive Alternates : Bool → List Text → Prop
  | nil (startsWithWord : Bool) : Alternates startsWithWord []
  | word {word : List Char} {rest : List Text} (hSome : word ≠ [])
      (hInline : ∀ character ∈ word, Inline character) (hUnspaced : ' ' ∉ word)
      (hRest : Alternates false rest) : Alternates true (Text.ofChars word :: rest)
  | spaces {count : Nat} {rest : List Text} (hCount : 0 < count) (hRest : Alternates true rest) :
      Alternates false (Text.ofChars (spaces count) :: rest)
  | lines {count : Nat} {rest : List Text} (hCount : 0 < count) (hRest : Alternates true rest) :
      Alternates false (Text.ofChars (lineEnds count) :: rest)

/-! ### Kinds -/

theorem exists_char {point : CodePoint} (hLow : 32 ≤ point.code) (hHigh : point.code ≤ 126) :
    ∃ character, point = .char character ∧ Inline character := by
  cases point with
  | char character => exact ⟨character, rfl, hLow, hHigh⟩
  | half index =>
      rw [CodePoint.code_half] at hHigh
      omega

theorem eq_or_exists_of_isSpecial {point : CodePoint} (hPlain : isSpecial point = false) :
    point = .char '\n' ∨ ∃ character, point = .char character ∧ Inline character := by
  simp only [isSpecial, Bool.not_eq_false', Bool.or_eq_true, Bool.and_eq_true, beq_iff_eq,
    decide_eq_true_iff] at hPlain
  rcases hPlain with hLine | ⟨hLow, hHigh⟩
  · exact .inl hLine
  · exact .inr (exists_char hLow hHigh)

theorem endsLine_inline {character : Char} (hInline : Inline character) :
    endsLine (.char character) = false := by
  simp [endsLine, hInline.ne (show ¬ Inline '\n' by decide),
    hInline.ne (show ¬ Inline '\x85' by decide), hInline.ne (show ¬ Inline '\u2028' by decide),
    hInline.ne (show ¬ Inline '\u2029' by decide)]

theorem any_endsLine_ofChars {word : List Char} (hInline : ∀ character ∈ word, Inline character) :
    (Text.ofChars word).any endsLine = false := by
  rw [Text.ofChars, List.any_map, List.any_eq_false]
  intro character hMember
  simp [endsLine_inline (hInline character hMember)]

theorem runKind_inline {character : Char} (hInline : Inline character) :
    runKind (.char character) = if character = ' ' then 0 else 2 := by
  by_cases hSpace : character = ' '
  · rw [if_pos hSpace, hSpace]
    rfl
  · simp [runKind, isSpace, hSpace, endsLine_inline hInline]

theorem Alternates.kind_head {startsWithWord : Bool} {parts : List Text}
    (hParts : Alternates startsWithWord parts) :
    ∀ point ∈ parts.flatten.head?, (startsWithWord = true ↔ runKind point = 2) := by
  cases hParts with
  | nil => rintro _ ⟨⟩
  | @word word rest hSome hInline hUnspaced _ =>
      obtain ⟨character, others, rfl⟩ := List.exists_cons_of_ne_nil hSome
      rintro _ ⟨rfl⟩
      have hSpace : character ≠ ' ' := by
        rintro rfl
        exact hUnspaced List.mem_cons_self
      simp [runKind_inline (hInline character List.mem_cons_self), hSpace]
  | spaces hCount _ =>
      obtain ⟨count, rfl⟩ := Nat.exists_eq_add_one_of_ne_zero (Nat.ne_of_gt hCount)
      rintro _ ⟨rfl⟩
      decide
  | lines hCount _ =>
      obtain ⟨count, rfl⟩ := Nat.exists_eq_add_one_of_ne_zero (Nat.ne_of_gt hCount)
      rintro _ ⟨rfl⟩
      decide

theorem Alternates.of_head {startsWithWord turn : Bool} {parts : List Text}
    (hParts : Alternates startsWithWord parts)
    (hHead : ∀ point ∈ parts.flatten.head?, (turn = true ↔ runKind point = 2)) :
    Alternates turn parts := by
  cases hFirst : parts.flatten.head? with
  | none =>
      cases hParts with
      | nil => exact .nil turn
      | word hSome _ _ _ => simp_all [Text.ofChars]
      | spaces hCount _ => simp_all [Text.ofChars]
      | lines hCount _ => simp_all [Text.ofChars]
  | some point =>
      have hSame : startsWithWord = turn := by
        rw [Bool.eq_iff_iff, hParts.kind_head point hFirst, hHead point hFirst]
      rwa [← hSame]

theorem exists_ofChars {part : Text} {condition : Char → Prop}
    (hPart : ∀ point ∈ part, ∃ character, point = .char character ∧ condition character) :
    ∃ word, part = Text.ofChars word ∧ ∀ character ∈ word, condition character := by
  induction part with
  | nil => exact ⟨[], rfl, List.forall_mem_nil _⟩
  | cons point rest ih =>
      obtain ⟨⟨character, rfl, hFirst⟩, hRest⟩ := List.forall_mem_cons.mp hPart
      obtain ⟨word, rfl, hWord⟩ := ih hRest
      exact ⟨character :: word, rfl, List.forall_mem_cons.mpr ⟨hFirst, hWord⟩⟩

theorem eq_space_of_runKind {point : CodePoint} (hKind : runKind point = 0) :
    point = .char ' ' := by
  unfold runKind at hKind
  split at hKind
  · rename_i hSpace
    exact beq_iff_eq.mp hSpace
  · split at hKind <;> cases hKind

theorem eq_lineEnd_of_runKind {point : CodePoint} (hPlain : isSpecial point = false)
    (hKind : runKind point = 1) : point = .char '\n' := by
  rcases eq_or_exists_of_isSpecial hPlain with hLine | ⟨character, rfl, hInline⟩
  · exact hLine
  · rw [runKind_inline hInline] at hKind
    split at hKind <;> cases hKind

theorem exists_char_of_runKind {point : CodePoint} (hPlain : isSpecial point = false)
    (hKind : runKind point = 2) :
    ∃ character, point = .char character ∧ Inline character ∧ character ≠ ' ' := by
  rcases eq_or_exists_of_isSpecial hPlain with rfl | ⟨character, rfl, hInline⟩
  · cases hKind
  · refine ⟨character, rfl, hInline, ?_⟩
    rintro rfl
    cases hKind

theorem runKind_cases (point : CodePoint) :
    runKind point = 0 ∨ runKind point = 1 ∨ runKind point = 2 := by
  unfold runKind
  split
  · exact .inl rfl
  · split
    · exact .inr (.inl rfl)
    · exact .inr (.inr rfl)

/-! ### Alternation -/

/-- A run of one kind of code points, none of which needs an escape. -/
theorem alternates_cons {part : Text} {rest : List Text} {kind : Nat} (hSome : part ≠ [])
    (hPlain : ∀ point ∈ part, isSpecial point = false)
    (hKind : ∀ point ∈ part, runKind point = kind) {startsWithWord : Bool}
    (hRest : Alternates startsWithWord rest)
    (hNext : ∀ other ∈ rest.flatten.head?, (kind = 2 ↔ runKind other ≠ 2)) :
    ∃ turn, Alternates turn (part :: rest) := by
  have hCount : 0 < part.length := List.length_pos_iff.mpr hSome
  have hGap : kind ≠ 2 → Alternates true rest := by
    intro hOther
    refine hRest.of_head fun other hHead => ?_
    have hTurn := mt (hNext other hHead).mpr hOther
    simpa using hTurn
  obtain ⟨first, others, rfl⟩ := List.exists_cons_of_ne_nil hSome
  have hFirst := hKind first List.mem_cons_self
  rcases runKind_cases first with hSpace | hLine | hWord
  · have hPart := List.eq_replicate_of_mem fun point hPoint =>
      eq_space_of_runKind ((hKind point hPoint).trans (hFirst.symm.trans hSpace))
    rw [hPart, ← List.map_replicate]
    exact ⟨false, .spaces hCount (hGap (by omega))⟩
  · have hPart := List.eq_replicate_of_mem fun point hPoint =>
      eq_lineEnd_of_runKind (hPlain point hPoint)
        ((hKind point hPoint).trans (hFirst.symm.trans hLine))
    rw [hPart, ← List.map_replicate]
    exact ⟨false, .lines hCount (hGap (by omega))⟩
  · obtain ⟨word, hPart, hInside⟩ := exists_ofChars fun point hPoint =>
      exists_char_of_runKind (hPlain point hPoint)
        ((hKind point hPoint).trans (hFirst.symm.trans hWord))
    rw [hPart]
    refine ⟨true, .word (by rintro rfl; cases hPart) (fun _ hChar => (hInside _ hChar).1)
      (fun hSpace => (hInside ' ' hSpace).2 rfl) (hRest.of_head fun other hHead => ?_)⟩
    have hTurn := (hNext other hHead).mp (hFirst.symm.trans hWord)
    simp [hTurn]

theorem isChain_of_hasPair {first second : CodePoint → Bool} {text : Text}
    (hPair : hasPair first second text = false) :
    text.IsChain fun left right => (first left && second right) = false := by
  induction text with
  | nil => exact .nil
  | cons left rest ih =>
      cases rest with
      | nil => exact .singleton left
      | cons right others =>
          rw [hasPair, Bool.or_eq_false_iff] at hPair
          exact .cons_cons hPair.1 (ih hPair.2)

theorem runKind_eq_of_isChain {part : Text} {first : CodePoint}
    (hChain : (first :: part).IsChain fun left right => (runKind left == runKind right) = true) :
    ∀ point ∈ first :: part, runKind point = runKind first := by
  induction part generalizing first with
  | nil => simp
  | cons second rest ih =>
      obtain ⟨hSame, hRest⟩ := List.isChain_cons_cons.mp hChain
      intro point hPoint
      rcases List.mem_cons.mp hPoint with rfl | hLater
      · rfl
      · rw [ih hRest point hLater, beq_iff_eq.mp hSame]

theorem isSpace_of_runKind {point : CodePoint} (hKind : runKind point = 0) :
    isSpace point = true := by
  rw [eq_space_of_runKind hKind]
  rfl

theorem endsLine_of_runKind {point : CodePoint} (hKind : runKind point = 1) :
    endsLine point = true := by
  unfold runKind at hKind
  split at hKind
  · cases hKind
  · split at hKind
    · assumption
    · cases hKind

theorem separates_of_runKind {point : CodePoint} (hKind : runKind point ≠ 2) :
    separates point = true := by
  rcases runKind_cases point with hSpace | hLine | hWord
  · rw [eq_space_of_runKind hSpace]
    rfl
  · rw [separates, endsLine_of_runKind hLine, Bool.or_true]
  · exact absurd hWord hKind

/-- Of two code points of different kinds where a space and a line end do not meet, just one belongs
to a word. -/
theorem runKind_turn {last next : CodePoint} (hKinds : runKind last ≠ runKind next)
    (hSpaceLine : (isSpace last && endsLine next) = false)
    (hLineSpace : (endsLine last && isSpace next) = false) :
    runKind last = 2 ↔ runKind next ≠ 2 := by
  rcases runKind_cases last with hLast | hLast | hLast
  · rcases runKind_cases next with hNext | hNext | hNext
    · omega
    · rw [isSpace_of_runKind hLast, endsLine_of_runKind hNext] at hSpaceLine
      cases hSpaceLine
    · omega
  · rcases runKind_cases next with hNext | hNext | hNext
    · rw [endsLine_of_runKind hLast, isSpace_of_runKind hNext] at hLineSpace
      cases hLineSpace
    · omega
    · omega
  · omega

/-- In a text in which no code point needs an escape, and in which spaces and line ends do not meet,
words and gaps alternate. -/
theorem alternates_runs {text : Text} (hPlain : ∀ point ∈ text, isSpecial point = false)
    (hSpaceLine : hasPair isSpace endsLine text = false)
    (hLineSpace : hasPair endsLine isSpace text = false) :
    ∃ startsWithWord, Alternates startsWithWord (runs text) := by
  replace hSpaceLine := isChain_of_hasPair hSpaceLine
  replace hLineSpace := isChain_of_hasPair hLineSpace
  have hFlatten : (runs text).flatten = text := List.flatten_splitBy _ text
  have hSome : ∀ part ∈ runs text, part ≠ [] := fun _ hPart => List.ne_nil_of_mem_splitBy hPart
  have hSame : ∀ part ∈ runs text, part.IsChain fun left right =>
      (runKind left == runKind right) = true := fun _ hPart => List.isChain_of_mem_splitBy hPart
  have hApart : (runs text).IsChain fun part next => ∃ hPart hNext,
      (runKind (part.getLast hPart) == runKind (next.head hNext)) = false :=
    List.isChain_getLast_head_splitBy (fun left right => runKind left == runKind right) text
  generalize runs text = parts at hFlatten hSome hSame hApart ⊢
  subst hFlatten
  induction parts with
  | nil => exact ⟨true, .nil true⟩
  | cons part rest ih =>
      obtain ⟨hPartSome, hRestSome⟩ := List.forall_mem_cons.mp hSome
      obtain ⟨hPartSame, hRestSame⟩ := List.forall_mem_cons.mp hSame
      obtain ⟨hNextApart, hRestApart⟩ := List.isChain_cons.mp hApart
      rw [List.flatten_cons] at hPlain hSpaceLine hLineSpace
      obtain ⟨hPartPlain, hRestPlain⟩ := List.forall_mem_append.mp hPlain
      obtain ⟨_, hRestSpaceLine, hMeetSpaceLine⟩ := List.isChain_append.mp hSpaceLine
      obtain ⟨_, hRestLineSpace, hMeetLineSpace⟩ := List.isChain_append.mp hLineSpace
      obtain ⟨startsWithWord, hRest⟩ :=
        ih hRestSome hRestSame hRestApart hRestPlain hRestSpaceLine hRestLineSpace
      obtain ⟨first, others, rfl⟩ := List.exists_cons_of_ne_nil hPartSome
      have hKind := runKind_eq_of_isChain hPartSame
      refine alternates_cons hPartSome hPartPlain hKind hRest fun other hHead => ?_
      have hLast := List.getLast?_eq_some_getLast hPartSome
      rw [← hKind _ (List.getLast_mem hPartSome)]
      refine runKind_turn ?_ (hMeetSpaceLine _ hLast other hHead)
        (hMeetLineSpace _ hLast other hHead)
      cases rest with
      | nil => cases hHead
      | cons next more =>
          obtain ⟨_, hNext, hDiffer⟩ := hNextApart next rfl
          obtain ⟨start, tail, rfl⟩ := List.exists_cons_of_ne_nil hNext
          rcases hHead with ⟨rfl⟩
          simpa using hDiffer

/-! ### Marks -/

section Marks

variable {front rest : Text} {point : CodePoint}

theorem marksInside_of_hasMarkInside {before previous : CodePoint}
    (hMark : hasMarkInside before (front ++ point :: rest) = false)
    (hPrevious : (before :: front).getLast? = some previous) :
    marksInside point (separates previous) ((rest.head?.map separates).getD true) = false := by
  induction front generalizing before with
  | nil =>
      cases hPrevious
      exact (Bool.or_eq_false_iff.mp hMark).1
  | cons first others ih =>
      rw [List.getLast?_cons_cons] at hPrevious
      exact ih (Bool.or_eq_false_iff.mp hMark).2 hPrevious

theorem marksStart_of_hasMark (hMark : hasMark (point :: rest) = false) :
    marksStart point ((rest.head?.map separates).getD true) = false :=
  (Bool.or_eq_false_iff.mp (Bool.or_eq_false_iff.mp hMark).2).1

theorem marksInside_of_hasMark {previous : CodePoint}
    (hMark : hasMark (front ++ point :: rest) = false)
    (hPrevious : front.getLast? = some previous) :
    marksInside point (separates previous) ((rest.head?.map separates).getD true) = false := by
  cases front with
  | nil => cases hPrevious
  | cons first others =>
      exact marksInside_of_hasMarkInside
        (Bool.or_eq_false_iff.mp (Bool.or_eq_false_iff.mp hMark).2).2 hPrevious

/-- Without marks, what stands between gaps is a word of a plain scalar. -/
theorem isWord_of_hasMark {word : List Char}
    (hMark : hasMark (front ++ (Text.ofChars word ++ rest)) = false) (hSome : word ≠ [])
    (hInline : ∀ character ∈ word, Inline character) (hUnspaced : ' ' ∉ word)
    (hFront : ∀ previous ∈ front.getLast?, separates previous = true)
    (hRest : ∀ next ∈ rest.head?, separates next = true) : IsWord word := by
  refine ⟨hSome, hInline, hUnspaced, ?_, ?_⟩
  · intro hStart
    obtain ⟨others, rfl⟩ := List.head?_eq_some_iff.mp hStart
    cases hPrevious : front.getLast? with
    | none =>
        rw [List.getLast?_eq_none_iff.mp hPrevious] at hMark
        have hNone := marksStart_of_hasMark hMark
        cases hNone
    | some previous =>
        have hNone := marksInside_of_hasMark hMark hPrevious
        rw [hFront previous hPrevious] at hNone
        cases hNone
  · intro hEnding
    obtain ⟨start, rfl⟩ := List.getLast?_eq_some_iff.mp hEnding
    have hFollowed : (rest.head?.map separates).getD true = true := by
      cases hNext : rest.head? with
      | none => rfl
      | some next => exact hRest next hNext
    have hSplit : front ++ (Text.ofChars (start ++ [':']) ++ rest) =
        (front ++ Text.ofChars start) ++ .char ':' :: rest := by
      simp [Text.ofChars]
    rw [hSplit] at hMark
    cases hPrevious : (front ++ Text.ofChars start).getLast? with
    | none =>
        rw [List.getLast?_eq_none_iff.mp hPrevious] at hMark
        have hNone := marksStart_of_hasMark hMark
        rw [hFollowed] at hNone
        cases hNone
    | some previous =>
        have hNone := marksInside_of_hasMark hMark hPrevious
        rw [hFollowed] at hNone
        cases hNone

end Marks

end LogicSignature.Yaml.Writer
