import Mathlib.Data.List.TakeWhile
import LogicSignature.Text.Blank
import LogicSignature.Text.Utf8

/-
Text with blanks around it, as a file of hexadecimal text may hold it. Line ends of any convention
are blanks and stay blanks, and stripping leaves the text between them.
-/

namespace LogicSignature

namespace Text

/-- A text with blanks around it. -/
def Surrounded (body text : Text) : Prop :=
  ∃ before after, (∀ point ∈ before, point.isBlank = true) ∧
    (∀ point ∈ after, point.isBlank = true) ∧ text = before ++ body ++ after

theorem strip_of_surrounded {body text : Text} (hText : Surrounded body text)
    (hBody : ∀ point ∈ body, point.isBlank = false) : text.strip = body := by
  obtain ⟨before, after, hBefore, hAfter, rfl⟩ := hText
  rw [strip, stripBy, List.append_assoc, List.dropWhile_append_of_pos hBefore]
  cases body with
  | nil =>
      rw [List.nil_append, List.dropWhile_eq_nil_iff.mpr hAfter]
      rfl
  | cons first rest =>
      have hReversed : ∀ point ∈ (first :: rest).reverse, point.isBlank = false :=
        fun point hPoint => hBody point (List.mem_reverse.mp hPoint)
      have hKept : (first :: rest).reverse.dropWhile CodePoint.isBlank =
          (first :: rest).reverse :=
        List.dropWhile_eq_self_iff.mpr fun hLength =>
          Bool.not_eq_true _ ▸ hReversed _ (List.getElem_mem hLength)
      rw [List.cons_append, List.dropWhile_cons_of_neg (by simp [hBody first List.mem_cons_self]),
        ← List.cons_append, List.reverse_append, List.dropWhile_append_of_pos
          fun point hPoint => hAfter point (List.mem_reverse.mp hPoint),
        hKept, List.reverse_reverse]

end Text

namespace Utf8

theorem normaliseLines_cons {character : Char} (hCharacter : character ≠ '\r')
    (rest : List Char) :
    normaliseLines (character :: rest) = character :: normaliseLines rest := by
  rw [normaliseLines] <;> simp_all

theorem normaliseLines_return {rest : List Char} (hRest : rest.head? ≠ some '\n') :
    normaliseLines ('\r' :: rest) = '\n' :: normaliseLines rest := by
  rw [normaliseLines]
  rintro others rfl
  exact hRest rfl

theorem normaliseLines_plain_append {body : List Char} (hBody : '\r' ∉ body) (rest : List Char) :
    normaliseLines (body ++ rest) = body ++ normaliseLines rest := by
  induction body with
  | nil => rfl
  | cons character others ih =>
      obtain ⟨hCharacter, hOthers⟩ := not_or.mp (mt List.mem_cons.mpr hBody)
      rw [List.cons_append, normaliseLines_cons (Ne.symm hCharacter), ih hOthers, List.cons_append]

/-- Only a carriage return and a line feed behind it are taken together. -/
theorem normaliseLines_append (before : List Char) {rest : List Char}
    (hRest : rest.head? ≠ some '\n') :
    normaliseLines (before ++ rest) =
      normaliseLines before ++ normaliseLines rest := by
  fun_induction normaliseLines before with
  | case1 => rfl
  | case2 others ih => exact congrArg _ ih
  | case3 others hOthers ih =>
      have hHead : (others ++ rest).head? ≠ some '\n' := by
        cases others with
        | nil => exact hRest
        | cons next others =>
            intro hNext
            exact hOthers others (by rw [Option.some.inj hNext])
      rw [List.cons_append, normaliseLines_return hHead, ih, List.cons_append]
  | case4 character others hPair hReturn ih =>
      have hCharacter : character ≠ '\r' := fun hSame => hReturn hSame
      rw [List.cons_append, List.cons_append, normaliseLines_cons hCharacter, ih]

theorem isBlank_of_mem_normaliseLines {characters : List Char}
    (hBlank : ∀ character ∈ characters, (CodePoint.char character).isBlank = true) :
    ∀ character ∈ normaliseLines characters, (CodePoint.char character).isBlank = true := by
  fun_induction normaliseLines characters with
  | case1 => exact hBlank
  | case2 others ih =>
      obtain ⟨_, hRest⟩ := List.forall_mem_cons.mp hBlank
      obtain ⟨hFeed, hRest⟩ := List.forall_mem_cons.mp hRest
      exact List.forall_mem_cons.mpr ⟨hFeed, ih hRest⟩
  | case3 others _ ih =>
      exact List.forall_mem_cons.mpr ⟨by decide, ih (List.forall_mem_cons.mp hBlank).2⟩
  | case4 character others _ _ ih =>
      obtain ⟨hFirst, hRest⟩ := List.forall_mem_cons.mp hBlank
      exact List.forall_mem_cons.mpr ⟨hFirst, ih hRest⟩

/-- Line ends are blanks, and become blanks. -/
theorem normaliseLines_surrounded {body text : List Char}
    (hBody : ∀ character ∈ body, (CodePoint.char character).isBlank = false)
    (hText : Text.Surrounded (Text.ofChars body) (Text.ofChars text)) :
    Text.Surrounded (Text.ofChars body) (Text.ofChars (normaliseLines text)) := by
  obtain ⟨before, after, hBefore, hAfter, hText⟩ := hText
  obtain ⟨front, behind, rfl, hFront, rfl⟩ := List.map_eq_append_iff.mp hText
  obtain ⟨ahead, middle, rfl, rfl, hMiddle⟩ := List.map_eq_append_iff.mp hFront
  obtain rfl : middle = body := (List.map_inj_right fun _ _ => CodePoint.char.inj).mp hMiddle
  have hAhead : ∀ character ∈ ahead, (CodePoint.char character).isBlank = true :=
    List.forall_mem_map.mp hBefore
  have hBehind : ∀ character ∈ behind, (CodePoint.char character).isBlank = true :=
    List.forall_mem_map.mp hAfter
  have hPlain : ∀ character, (CodePoint.char character).isBlank = true → character ∉ middle := by
    intro character hBlank hMember
    rw [hBody character hMember] at hBlank
    cases hBlank
  cases middle with
  | nil =>
      -- Nothing parts the blanks, and a line end may reach from the first to the second.
      refine ⟨Text.ofChars (normaliseLines (ahead ++ behind)), [], ?_, nofun, ?_⟩
      · exact List.forall_mem_map.mpr
          (isBlank_of_mem_normaliseLines (List.forall_mem_append.mpr ⟨hAhead, hBehind⟩))
      · simp [Text.ofChars]
  | cons first rest =>
      have hFirst : (first :: rest ++ behind).head? ≠ some '\n' := by
        intro hHead
        exact hPlain '\n' (by decide) (Option.some.inj hHead ▸ List.mem_cons_self)
      refine ⟨Text.ofChars (normaliseLines ahead), Text.ofChars (normaliseLines behind),
        List.forall_mem_map.mpr (isBlank_of_mem_normaliseLines hAhead),
        List.forall_mem_map.mpr (isBlank_of_mem_normaliseLines hBehind), ?_⟩
      rw [List.append_assoc, normaliseLines_append ahead hFirst,
        normaliseLines_plain_append (hPlain '\r' (by decide)), ← List.append_assoc]
      simp only [Text.ofChars, List.map_append]

end Utf8

end LogicSignature
