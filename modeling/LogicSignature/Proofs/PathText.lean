import Mathlib.Order.Lex
import Mathlib.Data.List.Lex
import LogicSignature.LangSpec.Violation

/-
The texts of paths and their order. Texts are ordered as the lists of the numbers of their code
points are. A path whose field names hold neither a dot nor a bracket can be read back from its
text, so that of two violations with the same path text both are at one place.
-/

namespace LogicSignature

/-! ### The order of texts -/

/-- No character has the number of a half. -/
theorem CodePoint.toNat_ne_half (character : Char) (index : Fin 2048) :
    character.toNat ≠ 0xD800 + index.val := by
  have hValid := CodePoint.char_valid character
  have hIndex := index.isLt
  omega

theorem CodePoint.code_injective : Function.Injective CodePoint.code := by
  intro left right hSame
  cases left with
  | char left =>
      cases right with
      | char right => exact congrArg CodePoint.char (Char.toNat_inj.mp hSame)
      | half right => exact absurd hSame (CodePoint.toNat_ne_half left right)
  | half left =>
      cases right with
      | char right => exact absurd hSame.symm (CodePoint.toNat_ne_half right left)
      | half right => exact congrArg CodePoint.half (Fin.ext (Nat.add_left_cancel hSame))

/-- The numbers of the code points of a text. -/
def Text.codes (text : Text) : List Nat := text.map CodePoint.code

theorem Text.codes_injective : Function.Injective Text.codes :=
  List.map_injective_iff.mpr CodePoint.code_injective

theorem Text.order_eq_gt_iff (left right : Text) :
    Text.order left right = .gt ↔ right.codes < left.codes := by
  induction left generalizing right with
  | nil =>
      cases right with
      | nil => simp [Text.order]
      | cons other others => simp [Text.order, Text.codes]
  | cons first rest ih =>
      cases right with
      | nil => simp [Text.order, Text.codes]
      | cons other others =>
          have hCodes : Text.codes (other :: others) < Text.codes (first :: rest) ↔
              other.code < first.code ∨
                other.code = first.code ∧ Text.codes others < Text.codes rest :=
            List.cons_lt_cons_iff
          rw [hCodes, Text.order]
          rcases Nat.lt_trichotomy first.code other.code with hLess | hSame | hGreater
          · rw [Nat.compare_eq_lt.mpr hLess]
            simp only [reduceCtorEq, false_iff]
            omega
          · rw [Nat.compare_eq_eq.mpr hSame]
            simp only [ih, hSame, lt_irrefl, true_and, false_or]
          · rw [Nat.compare_eq_gt.mpr hGreater]
            simp only [hGreater, true_or]

theorem Text.order_eq_eq_iff (left right : Text) : Text.order left right = .eq ↔ left = right := by
  induction left generalizing right with
  | nil => cases right <;> simp [Text.order]
  | cons first rest ih =>
      cases right with
      | nil => simp [Text.order]
      | cons other others =>
          rw [Text.order, List.cons.injEq, ← CodePoint.code_injective.eq_iff, ← Nat.compare_eq_eq]
          cases compare first.code other.code with
          | eq => simp only [ih, true_and]
          | lt => simp only [reduceCtorEq, false_and]
          | gt => simp only [reduceCtorEq, false_and]

namespace LangSpec

/-! ### Reading a path back from its text -/

/-- Whether a code point opens a step of a path. -/
def opensStep (point : CodePoint) : Bool := point == '.' || point == '['

def Step.isPlain : Step → Bool
  | .field name => name.all fun point => !opensStep point
  | .item _ => true

theorem append_inj_of_delimited (inside : CodePoint → Bool) {left right leftRest rightRest : Text}
    (hLeft : ∀ point ∈ left, inside point = true) (hRight : ∀ point ∈ right, inside point = true)
    (hLeftRest : ∀ point ∈ leftRest.head?, inside point = false)
    (hRightRest : ∀ point ∈ rightRest.head?, inside point = false)
    (hSame : left ++ leftRest = right ++ rightRest) : left = right ∧ leftRest = rightRest := by
  have hEnds : ∀ rest : Text, (∀ point ∈ rest.head?, inside point = false) →
      rest.takeWhile inside = [] := by
    intro rest hRest
    cases rest with
    | nil => rfl
    | cons first others => exact List.takeWhile_cons_of_neg (by simp [hRest first rfl])
  have hTaken := congrArg (List.takeWhile inside) hSame
  rw [List.takeWhile_append_of_pos hLeft, List.takeWhile_append_of_pos hRight, hEnds _ hLeftRest,
    hEnds _ hRightRest, List.append_nil, List.append_nil] at hTaken
  rw [hTaken] at hSame
  exact ⟨hTaken, List.append_cancel_left hSame⟩

theorem decimal_injective : Function.Injective Text.decimal := by
  intro left right hSame
  have hDigits : Nat.toDigits 10 left = Nat.toDigits 10 right :=
    List.map_injective_iff.mpr (fun _ _ => CodePoint.char.inj) hSame
  have hNumber := congrArg (Nat.ofDigitChars 10 · 0) hDigits
  simpa using hNumber

theorem ne_bracket_of_mem_decimal {number : Nat} {point : CodePoint}
    (hMember : point ∈ Text.decimal number) : point ≠ .char ']' := by
  rintro rfl
  obtain ⟨digit, hDigit, hSame⟩ := List.mem_map.mp hMember
  cases hSame
  have hIsDigit := Nat.isDigit_of_mem_toDigits (by decide) (by decide) hDigit
  exact absurd hIsDigit (by decide)

theorem text_field_append (name rest : Text) :
    (Step.field name).text ++ rest = .char '.' :: (name ++ rest) := rfl

theorem text_item_append (index : Nat) (rest : Text) :
    (Step.item index).text ++ rest = .char '[' :: (Text.decimal index ++ .char ']' :: rest) := by
  change .char '[' :: ((Text.decimal index ++ [.char ']']) ++ rest) = _
  rw [List.append_assoc, List.singleton_append]

theorem opensStep_of_head {steps : List Step} :
    ∀ point ∈ ((steps.map Step.text).flatten).head?, opensStep point = true := by
  intro point hPoint
  cases steps with
  | nil => cases hPoint
  | cons step rest =>
      cases step with
      | field name =>
          cases hPoint
          rfl
      | item index =>
          cases hPoint
          rfl

theorem steps_eq_of_texts {left right : List Step} (hLeft : ∀ step ∈ left, step.isPlain = true)
    (hRight : ∀ step ∈ right, step.isPlain = true)
    (hSame : (left.map Step.text).flatten = (right.map Step.text).flatten) : left = right := by
  induction left generalizing right with
  | nil =>
      cases right with
      | nil => rfl
      | cons step rest => cases step <;> cases hSame
  | cons first leftRest ih =>
      cases right with
      | nil => cases first <;> cases hSame
      | cons second rightRest =>
          rw [List.map_cons, List.flatten_cons, List.map_cons, List.flatten_cons] at hSame
          obtain ⟨hFirst, hLeftRest⟩ := List.forall_mem_cons.mp hLeft
          obtain ⟨hSecond, hRightRest⟩ := List.forall_mem_cons.mp hRight
          cases first with
          | field name =>
              cases second with
              | item index => cases hSame
              | field other =>
                  -- A name ends where the next step opens.
                  rw [text_field_append, text_field_append, List.cons.injEq] at hSame
                  obtain ⟨hName, hRest⟩ := append_inj_of_delimited (fun point => !opensStep point)
                    (List.all_eq_true.mp hFirst) (List.all_eq_true.mp hSecond)
                    (fun point hPoint => by simp [opensStep_of_head point hPoint])
                    (fun point hPoint => by simp [opensStep_of_head point hPoint]) hSame.2
                  rw [hName, ih hLeftRest hRightRest hRest]
          | item index =>
              cases second with
              | field name => cases hSame
              | item other =>
                  -- An index ends at its closing bracket.
                  rw [text_item_append, text_item_append, List.cons.injEq] at hSame
                  obtain ⟨hIndex, hRest⟩ := append_inj_of_delimited
                    (fun point => point != .char ']')
                    (fun point hPoint => by simpa using ne_bracket_of_mem_decimal hPoint)
                    (fun point hPoint => by simpa using ne_bracket_of_mem_decimal hPoint)
                    (fun point hPoint => by cases hPoint; rfl)
                    (fun point hPoint => by cases hPoint; rfl) hSame.2
                  rw [decimal_injective hIndex, ih hLeftRest hRightRest (List.cons.inj hRest).2]

theorem pathText_inj {left right : List Step} (hLeft : ∀ step ∈ left, step.isPlain = true)
    (hRight : ∀ step ∈ right, step.isPlain = true) (hSame : pathText left = pathText right) :
    left = right :=
  steps_eq_of_texts hLeft hRight (List.append_cancel_left hSame)

end LangSpec

end LogicSignature
