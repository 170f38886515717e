import Mathlib.Data.List.Forall2
import Mathlib.Logic.Relation
import Mathlib.Tactic.IntervalCases
import LogicSignature.Proofs.CommandOutcomes

/-
The texts that spell bytes in hexadecimal digits.

Such a text consists of pairs of digits in either case, one for each byte, with blanks in front of
the pairs and behind each of them; a mark may stand in front of it all. These texts are read, as the
bytes that they spell, and all others are refused. So the bytes of a text stay the same when blanks
are put between pairs, digits change their case, or a mark is put in front.
-/

namespace LogicSignature

namespace Hex

/-! ### The grammar -/

/-- A digit of a value, in either case. -/
def IsDigit (value : Nat) (point : CodePoint) : Prop :=
  point = .char (Nat.digitChar value) ∨ point = .char (Nat.digitChar value).toUpper

/-- A text of blanks only. -/
def IsGap (text : Text) : Prop := ∀ point ∈ text, point.isAsciiBlank = true

/-- The two digits of a byte, and blanks behind them. -/
def IsPair (byte : UInt8) (piece : Text) : Prop :=
  ∃ high low gap, IsDigit (byte.toNat / 16) high ∧ IsDigit (byte.toNat % 16) low ∧ IsGap gap ∧
    piece = high :: low :: gap

/-- A text that consists of blanks and of one pair for each byte, in order. -/
def Spells (text : Text) (bytes : List UInt8) : Prop :=
  ∃ gap pieces, IsGap gap ∧ List.Forall₂ IsPair bytes pieces ∧ text = gap ++ pieces.flatten

/-- The marks that may stand in front. -/
def marks : List Text := ["0x", "0X"]

/-- What a text is without one leading mark, if it has one. -/
inductive Unmarked : Text → Text → Prop
  | marked {mark : Text} (hMark : mark ∈ marks) (body : Text) : Unmarked (mark ++ body) body
  | bare {text : Text} (hBare : ∀ mark ∈ marks, ¬ mark <+: text) : Unmarked text text

/-! ### Digits and blanks -/

theorem hexDigit?_of_isDigit {value : Nat} {point : CodePoint} (hValue : value < 16)
    (hDigit : IsDigit value point) : point.hexDigit? = some value := by
  rcases hDigit with rfl | rfl
  · exact hexDigit?_digitChar value hValue
  · revert value
    decide

theorem isDigit_of_hexDigit? {value : Nat} {point : CodePoint}
    (hDigit : point.hexDigit? = some value) : value < 16 ∧ IsDigit value point := by
  have hCodes : value < 10 ∧ point.code = value + 48 ∨
      10 ≤ value ∧ value < 16 ∧ (point.code = value + 87 ∨ point.code = value + 55) := by
    unfold CodePoint.hexDigit? at hDigit
    simp only [Bool.and_eq_true, decide_eq_true_iff] at hDigit
    grind
  unfold IsDigit
  rw [← CodePoint.ofCode_code point]
  rcases hCodes with ⟨hValue, hCode⟩ | ⟨hLow, hValue, hCode | hCode⟩
  · rw [hCode]
    clear hDigit hCode
    interval_cases value <;> decide
  · rw [hCode]
    clear hDigit hCode
    interval_cases value <;> decide
  · rw [hCode]
    clear hDigit hCode
    interval_cases value <;> decide

theorem isAsciiBlank_of_isDigit {value : Nat} {point : CodePoint} (hValue : value < 16)
    (hDigit : IsDigit value point) : point.isAsciiBlank = false := by
  rcases hDigit with rfl | rfl <;> revert value <;> decide

/-! ### Reading what the grammar allows -/

theorem pairs_cons_blank {point : CodePoint} (hPoint : point.isAsciiBlank = true) (rest : Text) :
    pairs (point :: rest) = pairs rest := by
  cases rest with
  | nil => simp only [pairs, if_pos hPoint]
  | cons next others => rw [pairs, if_pos hPoint]

theorem pairs_gap_append {gap : Text} (hGap : IsGap gap) (rest : Text) :
    pairs (gap ++ rest) = pairs rest := by
  induction gap with
  | nil => rfl
  | cons point others ih =>
      obtain ⟨hPoint, hOthers⟩ := List.forall_mem_cons.mp hGap
      rw [List.cons_append, pairs_cons_blank hPoint, ih hOthers]

theorem pairs_pair_append {byte : UInt8} {piece : Text} (hPiece : IsPair byte piece)
    (rest : Text) : pairs (piece ++ rest) = (pairs rest).map (byte :: ·) := by
  obtain ⟨high, low, gap, hHigh, hLow, hGap, rfl⟩ := hPiece
  have hByte : byte.toNat < 256 := byte.toNat_lt
  have hValue : UInt8.ofNat (byte.toNat / 16 * 16 + byte.toNat % 16) = byte := by
    rw [Nat.div_add_mod', UInt8.ofNat_toNat]
  rw [List.cons_append, List.cons_append, pairs, isAsciiBlank_of_isDigit (by omega) hHigh,
    hexDigit?_of_isDigit (by omega) hHigh, hexDigit?_of_isDigit (by omega) hLow,
    pairs_gap_append hGap]
  cases pairs rest with
  | none => rfl
  | some others => simp only [Bool.false_eq_true, if_false, hValue, Option.map_some]

/-- Behind a text that spells bytes, reading starts anew. -/
theorem pairs_append_of_spells {front : Text} {bytes : List UInt8} (hFront : Spells front bytes)
    (back : Text) : pairs (front ++ back) = (pairs back).map (bytes ++ ·) := by
  obtain ⟨gap, pieces, hGap, hPieces, rfl⟩ := hFront
  rw [List.append_assoc, pairs_gap_append hGap]
  induction hPieces with
  | nil => exact (Option.map_id' (x := pairs back)).symm
  | cons hPiece _ ih =>
      rw [List.flatten_cons, List.append_assoc, pairs_pair_append hPiece, ih, Option.map_map]
      rfl

theorem spells_nil : Spells [] [] := ⟨[], [], List.forall_mem_nil _, .nil, rfl⟩

theorem Spells.blank_cons {point : CodePoint} {rest : Text} {bytes : List UInt8}
    (hPoint : point.isAsciiBlank = true) (hRest : Spells rest bytes) :
    Spells (point :: rest) bytes := by
  obtain ⟨gap, pieces, hGap, hPieces, rfl⟩ := hRest
  exact ⟨point :: gap, pieces, List.forall_mem_cons.mpr ⟨hPoint, hGap⟩, hPieces, rfl⟩

/-- The blanks in front of the rest are those behind the new pair. -/
theorem Spells.pair_cons {high low : CodePoint} {rest : Text} {bytes : List UInt8}
    {first second : Nat} (hFirst : first < 16) (hSecond : second < 16)
    (hHigh : IsDigit first high) (hLow : IsDigit second low) (hRest : Spells rest bytes) :
    Spells (high :: low :: rest) (UInt8.ofNat (first * 16 + second) :: bytes) := by
  obtain ⟨gap, pieces, hGap, hPieces, rfl⟩ := hRest
  have hByte : (UInt8.ofNat (first * 16 + second)).toNat = first * 16 + second :=
    UInt8.toNat_ofNat_of_lt' (by change first * 16 + second < 256; omega)
  have hHalves : (first * 16 + second) / 16 = first ∧ (first * 16 + second) % 16 = second := by
    omega
  have hPair : IsPair (UInt8.ofNat (first * 16 + second)) (high :: low :: gap) := by
    refine ⟨high, low, gap, ?_, ?_, hGap, rfl⟩
    · rwa [hByte, hHalves.1]
    · rwa [hByte, hHalves.2]
  exact ⟨[], _, List.forall_mem_nil _, .cons hPair hPieces, rfl⟩

theorem spells_of_pairs {text : Text} {bytes : List UInt8} (hPairs : pairs text = some bytes) :
    Spells text bytes := by
  fun_induction pairs text generalizing bytes with
  | case1 =>
      cases hPairs
      exact spells_nil
  | case2 only hOnly =>
      cases hPairs
      exact spells_nil.blank_cons hOnly
  | case3 => cases hPairs
  | case4 first second rest hFirst ih => exact (ih hPairs).blank_cons hFirst
  | case5 first second rest _ high low others hOthers hLow hHigh ih =>
      cases hPairs
      obtain ⟨hFirst, hFirstDigit⟩ := isDigit_of_hexDigit? hHigh
      obtain ⟨hSecond, hSecondDigit⟩ := isDigit_of_hexDigit? hLow
      exact (ih hOthers).pair_cons hFirst hSecond hFirstDigit hSecondDigit
  | case6 => cases hPairs

theorem pairs_eq_some_iff (text : Text) (bytes : List UInt8) :
    pairs text = some bytes ↔ Spells text bytes := by
  refine ⟨spells_of_pairs, fun hSpells => ?_⟩
  have hRead := pairs_append_of_spells hSpells []
  rwa [List.append_nil, pairs, Option.map_some, List.append_nil] at hRead

/-! ### The mark -/

theorem isMarked_eq_true_iff (text : Text) :
    isMarked text = true ↔ ∃ mark ∈ marks, mark <+: text := by
  constructor
  · intro hMarked
    unfold isMarked at hMarked
    split at hMarked
    · rename_i letter rest
      simp only [Bool.or_eq_true, beq_iff_eq] at hMarked
      rcases hMarked with rfl | rfl
      · exact ⟨"0x", by decide, rest, rfl⟩
      · exact ⟨"0X", by decide, rest, rfl⟩
    · cases hMarked
  · rintro ⟨mark, hMark, rest, rfl⟩
    simp only [marks, List.mem_cons, List.not_mem_nil, or_false] at hMark
    rcases hMark with rfl | rfl <;> rfl

theorem unmarked_mark_append {mark : Text} (hMark : mark ∈ marks) (body : Text) :
    unmarked (mark ++ body) = body := by
  have hMarked : isMarked (mark ++ body) = true :=
    (isMarked_eq_true_iff _).mpr ⟨mark, hMark, body, rfl⟩
  have hLengths : ∀ mark ∈ marks, mark.length = 2 := by decide
  rw [unmarked, if_pos hMarked, ← hLengths mark hMark, List.drop_left]

theorem unmarked_iff (text body : Text) : Unmarked text body ↔ unmarked text = body := by
  constructor
  · rintro (⟨hMark, _⟩ | hBare)
    · exact unmarked_mark_append hMark body
    · rw [unmarked, if_neg]
      rw [isMarked_eq_true_iff]
      rintro ⟨mark, hMark, hPrefix⟩
      exact hBare mark hMark hPrefix
  · rintro rfl
    by_cases hMarked : isMarked text = true
    · obtain ⟨mark, hMark, body, rfl⟩ := (isMarked_eq_true_iff text).mp hMarked
      rw [unmarked_mark_append hMark]
      exact .marked hMark body
    · rw [unmarked, if_neg hMarked]
      exact .bare fun mark hMark hPrefix =>
        hMarked ((isMarked_eq_true_iff text).mpr ⟨mark, hMark, hPrefix⟩)

theorem parse?_eq_some_iff (text : Text) (bytes : List UInt8) :
    parse? text = some bytes ↔ ∃ body, Unmarked text body ∧ Spells body bytes := by
  rw [parse?, pairs_eq_some_iff]
  constructor
  · exact fun hSpells => ⟨_, (unmarked_iff _ _).mpr rfl, hSpells⟩
  · rintro ⟨body, hBody, hSpells⟩
    rwa [(unmarked_iff _ _).mp hBody]

/-! ### Changes that keep the bytes -/

/-- A change of the look of a text: a blank put where a pair could begin, or another case for a
digit. -/
inductive Restyles : Text → Text → Prop
  | gap {front : Text} {bytes : List UInt8} {point : CodePoint} (hFront : Spells front bytes)
      (hPoint : point.isAsciiBlank = true) (back : Text) :
      Restyles (front ++ back) (front ++ point :: back)
  | digitCase {value : Nat} {old new : CodePoint} (hValue : value < 16) (hOld : IsDigit value old)
      (hNew : IsDigit value new) (front back : Text) :
      Restyles (front ++ old :: back) (front ++ new :: back)

/-- Code points that reading does not tell apart. -/
def SameRole (left right : CodePoint) : Prop :=
  left.isAsciiBlank = right.isAsciiBlank ∧ left.hexDigit? = right.hexDigit?

theorem sameRole_of_isDigit {value : Nat} {old new : CodePoint} (hValue : value < 16)
    (hOld : IsDigit value old) (hNew : IsDigit value new) : SameRole old new := by
  constructor
  · rw [isAsciiBlank_of_isDigit hValue hOld, isAsciiBlank_of_isDigit hValue hNew]
  · rw [hexDigit?_of_isDigit hValue hOld, hexDigit?_of_isDigit hValue hNew]

theorem pairs_congr {left right : Text} (hRoles : List.Forall₂ SameRole left right) :
    pairs left = pairs right := by
  -- Reading takes a blank or a pair at a time, so the text behind one point and the text behind two
  -- are both needed.
  induction left using List.twoStepInduction generalizing right with
  | nil =>
      cases hRoles
      rfl
  | singleton only =>
      obtain _ | ⟨hRole, ⟨⟩⟩ := hRoles
      simp only [pairs, hRole.1]
  | cons_cons first second rest ihRest ihNext =>
      obtain _ | ⟨hRole, hBehind⟩ := hRoles
      obtain _ | ⟨hNext, hRest⟩ := hBehind
      simp only [pairs, hRole.1, hRole.2, hNext.2, ihRest hRest, ihNext second (.cons hNext hRest)]

theorem Restyles.pairs_eq {old new : Text} (hStyle : Restyles old new) : pairs new = pairs old := by
  cases hStyle with
  | gap hFront hPoint back =>
      rw [pairs_append_of_spells hFront, pairs_append_of_spells hFront, pairs_cons_blank hPoint]
  | digitCase hValue hOld hNew front back =>
      refine pairs_congr (List.rel_append ?_ (.cons (sameRole_of_isDigit hValue hNew hOld) ?_))
      · exact List.forall₂_same.mpr fun _ _ => ⟨rfl, rfl⟩
      · exact List.forall₂_same.mpr fun _ _ => ⟨rfl, rfl⟩

theorem pairs_of_restyled {bytes : List UInt8} {text : Text}
    (hStyle : Relation.ReflTransGen Restyles (encode bytes) text) : pairs text = some bytes := by
  induction hStyle with
  | refl => exact pairs_encode bytes
  | tail _ hLast ih => rw [hLast.pairs_eq, ih]

/-- No digit and no blank is the letter of a mark, so that a text that is read has no mark yet. -/
theorem isMarked_of_pairs {text : Text} {bytes : List UInt8} (hPairs : pairs text = some bytes) :
    isMarked text = false := by
  by_contra hMarked
  rw [Bool.not_eq_false, isMarked_eq_true_iff] at hMarked
  obtain ⟨mark, hMark, rest, rfl⟩ := hMarked
  have hLetters : ∀ mark ∈ marks, ∃ letter ∈ mark,
      letter.isAsciiBlank = false ∧ letter.hexDigit? = none := by decide
  obtain ⟨letter, hLetter, hBlank, hDigit⟩ := hLetters mark hMark
  rw [pairs_eq_none_of_mem (List.mem_append_left _ hLetter) hBlank hDigit] at hPairs
  cases hPairs

theorem parse?_mark_restyled {bytes : List UInt8} {text : Text}
    (hStyle : Relation.ReflTransGen Restyles (encode bytes) text) {mark : Text}
    (hMark : mark ∈ [] :: marks) : parse? (mark ++ text) = some bytes := by
  have hPairs := pairs_of_restyled hStyle
  rcases List.mem_cons.mp hMark with rfl | hMark
  · rw [List.nil_append, parse?, unmarked, isMarked_of_pairs hPairs]
    exact hPairs
  · rw [parse?, unmarked_mark_append hMark, hPairs]

end Hex

/-! ### Reading text that is given -/

namespace CommandLine

/-- A run that is ended by text that spells no bytes has no output and ends with code 1. -/
theorem outcome_of_hex_fault {format : Output.Format} {request : Request} {session : Session}
    {what given : Text}
    (hFault : (Session.perform (respond format request) session).1 = .error (.hex what given)) :
    (runRequest format request session).1 = ⟨1, []⟩ := by
  rw [outcome_runRequest, hFault]
  rfl

end CommandLine

namespace Session

/-- A text is read exactly if it spells bytes, with or without a mark, and as these bytes. Every
other text is refused, and a run that this ends has exit code 1. The text of bytes may be restyled
and marked without any change of the bytes. -/
theorem readHex_outcomes (given what : Text) :
    (∀ bytes, readHex given what = .ok bytes ↔
      ∃ body, Hex.Unmarked given body ∧ Hex.Spells body bytes) ∧
    ((∀ bytes body, Hex.Unmarked given body → ¬ Hex.Spells body bytes) →
      readHex given what = .error (.hex what given) ∧
        ∀ format request session,
          (perform (CommandLine.respond format request) session).1 = .error (.hex what given) →
            (CommandLine.runRequest format request session).1 = ⟨1, []⟩) ∧
    ∀ bytes text, Relation.ReflTransGen Hex.Restyles (Hex.encode bytes) text →
      ∀ mark ∈ [] :: Hex.marks, readHex (mark ++ text) what = .ok bytes := by
  refine ⟨fun bytes => ?_, fun hNone => ⟨?_, ?_⟩, ?_⟩
  · rw [← Hex.parse?_eq_some_iff, readHex]
    cases Hex.parse? given <;> simp
  · have hParse : Hex.parse? given = none := by
      by_contra hSome
      obtain ⟨bytes, hBytes⟩ := Option.ne_none_iff_exists'.mp hSome
      obtain ⟨body, hBody, hSpells⟩ := (Hex.parse?_eq_some_iff given bytes).mp hBytes
      exact hNone bytes body hBody hSpells
    rw [readHex, hParse]
  · exact fun format request session => CommandLine.outcome_of_hex_fault
  · intro bytes text hStyle mark hMark
    exact readHex_eq_ok (Hex.parse?_mark_restyled hStyle hMark) what

/-- A request to decode a text with a blank inside its only pair. -/
def splitPair : CommandLine.Request := ⟨.varintDecode, { text := "a b" }⟩

theorem restyled_text_read_and_split_pair_refused :
    readHex "0XaB\n01" "data" = .ok [0xAB, 0x01] ∧
      readHex "a b" "data" = .error (.hex "data" "a b") ∧
      (CommandLine.runRequest .json splitPair (startedWith [])).1 = ⟨1, []⟩ := by
  obtain ⟨-, hRefused, hRestyled⟩ := readHex_outcomes "a b" "data"
  have hNone : ∀ bytes body, Hex.Unmarked "a b" body → ¬ Hex.Spells body bytes := by
    intro bytes body hBody hSpells
    have hParse : Hex.parse? "a b" = some bytes :=
      (Hex.parse?_eq_some_iff _ _).mpr ⟨body, hBody, hSpells⟩
    cases hParse
  have hEleven : Hex.IsDigit 11 (.char 'b') ∧ Hex.IsDigit 11 (.char 'B') := ⟨.inl rfl, .inr rfl⟩
  have hCase : Hex.Restyles (Hex.encode [0xAB, 0x01]) "aB01" :=
    .digitCase (by decide) hEleven.1 hEleven.2 "a" "01"
  have hFront : Hex.Spells "aB" [0xAB] := (Hex.pairs_eq_some_iff _ _).mp rfl
  have hGap : Hex.Restyles "aB01" "aB\n01" := .gap hFront (by decide) "01"
  obtain ⟨hFault, hCode⟩ := hRefused hNone
  refine ⟨?_, hFault, hCode .json splitPair (startedWith []) rfl⟩
  exact hRestyled _ _ (.tail (.single hCase) hGap) "0X" (by decide)

end Session

end LogicSignature
