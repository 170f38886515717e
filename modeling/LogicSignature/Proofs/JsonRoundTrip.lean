import LogicSignature.Proofs.EscapedText
import LogicSignature.Proofs.NumberText

/-
Writing a value in JSON and reading the text gives the value back if its integers are short enough,
its real numbers are numbers of the format, its texts have no high half directly before a low half
and the names in each of its records are distinct. The main statement is proved by induction on
these conditions: every text reads back whatever may follow a value.
-/

namespace LogicSignature.Json

/-- A value that JSON text can hold. -/
inductive Legible : Value → Prop
  | null : Legible .null
  | boolean (flag : Bool) : Legible (.boolean flag)
  | integer {number : Int} (hWritable : Numeral.isWritable number = true) :
      Legible (.integer number)
  | real {number : Binary64} (hProper : number.IsProper) : Legible (.real number)
  | text {content : Text} (hJoined : content.IsJoined) : Legible (.text content)
  | list {items : List Value} (hItems : ∀ item ∈ items, Legible item) : Legible (.list items)
  | record {fields : List (Text × Value)} (hDistinct : (fields.map Prod.fst).Nodup)
      (hNames : ∀ entry ∈ fields, entry.1.IsJoined) (hValues : ∀ entry ∈ fields, Legible entry.2) :
      Legible (.record fields)

/-! ### Reading a written value -/

/-- The text of a value reads back as the value, whatever value may end there. -/
def ReadsBack (item : Value) : Prop :=
  ∀ (bound : Nat) (rest : Text), (compact item).length ≤ bound → EndsValue rest →
    value bound (compact item ++ rest) = .ok (item, rest)

theorem skipBlanks_of_head {first : CodePoint} (hFirst : isBlank first = false) (rest : Text) :
    skipBlanks (first :: rest) = first :: rest :=
  List.dropWhile_cons_of_neg (by simp [hFirst])

/-- No value starts with a blank or a closing bracket. -/
theorem exists_head_of_value {bound : Nat} {input : Text} {result : Value × Text}
    (hRead : value (bound + 1) input = .ok result) :
    ∃ first rest, input = first :: rest ∧ isBlank first = false ∧ first ≠ .char ']' := by
  cases input with
  | nil => cases hRead
  | cons first rest =>
      refine ⟨first, rest, rfl, ?_, ?_⟩
      · rw [Bool.eq_false_iff]
        intro hBlank
        simp only [isBlank, Bool.or_eq_true, beq_iff_eq] at hBlank
        rcases hBlank with ((rfl | rfl) | rfl) | rfl <;> cases hRead
      · rintro rfl
        cases hRead

theorem endsValue_nil : EndsValue [] := nofun

theorem endsValue_comma (rest : Text) : EndsValue (.char ',' :: rest) := by
  rintro point ⟨rfl⟩
  exact .inl rfl

theorem endsValue_bracket (rest : Text) : EndsValue (.char ']' :: rest) := by
  rintro point ⟨rfl⟩
  exact .inr (.inl rfl)

theorem endsValue_brace (rest : Text) : EndsValue (.char '\x7d' :: rest) := by
  rintro point ⟨rfl⟩
  exact .inr (.inr rfl)

/-- A text that reads back is not empty, so that the bound is never zero. -/
theorem readsBack_of_succ {item : Value}
    (hRead : ∀ (bound : Nat) (rest : Text), (compact item).length ≤ bound + 1 → EndsValue rest →
      value (bound + 1) (compact item ++ rest) = .ok (item, rest)) : ReadsBack item := by
  intro bound rest hBound hRest
  cases bound with
  | succ bound => exact hRead bound rest hBound hRest
  | zero =>
      have hNone := hRead 0 [] (by omega) endsValue_nil
      rw [List.eq_nil_of_length_eq_zero (Nat.le_zero.mp hBound)] at hNone
      cases hNone

theorem ReadsBack.exists_head {item : Value} (hItem : ReadsBack item) (rest : Text) :
    ∃ first others, compact item ++ rest = first :: others ∧ isBlank first = false ∧
      first ≠ .char ']' := by
  have hRead := hItem ((compact item).length + 1) [] (Nat.le_succ _) endsValue_nil
  rw [List.append_nil] at hRead
  obtain ⟨first, others, hText, hBlank, hBracket⟩ := exists_head_of_value hRead
  exact ⟨first, others ++ rest, by rw [hText, List.cons_append], hBlank, hBracket⟩

theorem comma_append (rest : Text) : (", " : Text) ++ rest = .char ',' :: .char ' ' :: rest := rfl

theorem exists_join_cons (part : Text) (rest : List Text) :
    ∃ behind, Text.join ", " (part :: rest) = part ++ behind := by
  cases rest with
  | nil => exact ⟨[], by rw [Text.join_singleton, List.append_nil]⟩
  | cons next rest => exact ⟨_, Text.join_cons_cons _ part next rest⟩

/-- A list that is not empty starts with its first item. -/
theorem ReadsBack.exists_head_items {item : Value} (hItem : ReadsBack item) (others : List Value)
    (rest : Text) :
    ∃ first tail, Text.join ", " (compactItems (item :: others)) ++ rest = first :: tail ∧
      isBlank first = false ∧ first ≠ .char ']' := by
  obtain ⟨behind, hJoin⟩ := exists_join_cons (compact item) (compactItems others)
  rw [compactItems, hJoin, List.append_assoc]
  exact hItem.exists_head (behind ++ rest)

theorem skipBlanks_space {input : Text} {first : CodePoint} {tail : Text}
    (hInput : input = first :: tail) (hBlank : isBlank first = false) :
    skipBlanks (.char ' ' :: input) = input := by
  rw [hInput]
  exact skipBlanks_of_head hBlank tail

theorem elements_compactItems {items : List Value} (hItems : ∀ item ∈ items, ReadsBack item)
    (hSome : items ≠ []) (bound : Nat) (done : List Value) (rest : Text)
    (hBound : (Text.join ", " (compactItems items)).length < bound) :
    elements bound done (Text.join ", " (compactItems items) ++ .char ']' :: rest) =
      .ok (.list (done.reverse ++ items), rest) := by
  induction items generalizing bound done with
  | nil => exact absurd rfl hSome
  | cons item others ih =>
      obtain ⟨bound, rfl⟩ : ∃ fewer, bound = fewer + 1 := ⟨bound - 1, by omega⟩
      have hItem := hItems item List.mem_cons_self
      cases others with
      | nil =>
          rw [compactItems, compactItems, Text.join_singleton] at hBound ⊢
          rw [elements, hItem bound _ (by omega) (endsValue_bracket rest)]
          change Except.ok (Value.list (item :: done).reverse, rest) = _
          rw [List.reverse_cons]
      | cons next others =>
          have hRest : ∀ later ∈ next :: others, ReadsBack later :=
            fun later hLater => hItems later (List.mem_cons_of_mem _ hLater)
          obtain ⟨first, tail, hText, hBlank, -⟩ :=
            (hRest next List.mem_cons_self).exists_head_items others (.char ']' :: rest)
          rw [compactItems, compactItems, Text.join_cons_cons, comma_append, ← compactItems]
            at hBound ⊢
          rw [List.length_append, List.length_cons, List.length_cons] at hBound
          rw [List.append_assoc, List.cons_append, List.cons_append, elements,
            hItem bound _ (by omega) (endsValue_comma _)]
          change elements bound (item :: done) (skipBlanks (.char ' ' :: _)) = _
          rw [skipBlanks_space hText hBlank, ih hRest (List.cons_ne_nil _ _) bound _ (by omega),
            List.reverse_cons, List.append_assoc, List.singleton_append]

theorem readsBack_list {items : List Value} (hItems : ∀ item ∈ items, ReadsBack item) :
    ReadsBack (.list items) := by
  apply readsBack_of_succ
  intro bound rest hBound hRest
  have hText : compact (.list items) ++ rest =
      .char '[' :: (Text.join ", " (compactItems items) ++ .char ']' :: rest) := by
    rw [compact, List.append_assoc, List.append_assoc]
    rfl
  have hLength : (Text.join ", " (compactItems items)).length + 2 ≤ bound + 1 := by
    rw [compact, List.length_append, List.length_append] at hBound
    change 1 + _ + 1 ≤ bound + 1 at hBound
    omega
  rw [hText]
  cases items with
  | nil => rfl
  | cons item others =>
      obtain ⟨first, tail, hHead, hBlank, hBracket⟩ :=
        (hItems item List.mem_cons_self).exists_head_items others (.char ']' :: rest)
      have hElements :=
        elements_compactItems hItems (List.cons_ne_nil _ _) bound [] rest (by omega)
      rw [hHead] at hElements ⊢
      rw [value, skipBlanks_of_head hBlank]
      split
      case h_1 after hSame =>
        cases hSame
        exact absurd rfl hBracket
      case h_2 => exact hElements

/-! ### Records -/

theorem quote_append (name rest : Text) :
    quote name ++ rest =
      .char '\x22' :: (name.flatMap escapePoint ++ .char '\x22' :: rest) := by
  rw [quote, List.append_assoc, List.singleton_append, List.cons_append]

section Fields

variable {name : Text} {item : Value} (hName : name.IsJoined) (hItem : ReadsBack item) {bound : Nat}
  (hBound : (compact item).length ≤ bound) (done : List (Text × Value))

theorem fieldText_append (name after : Text) (item : Value) :
    quote name ++ ": " ++ compact item ++ after =
      .char '\x22' :: (name.flatMap escapePoint ++ .char '\x22' :: .char ':' :: .char ' ' ::
        (compact item ++ after)) := by
  rw [List.append_assoc, List.append_assoc, quote_append]
  rfl

include hName hItem hBound

theorem members_last (rest : Text) :
    members (bound + 1) done (quote name ++ ": " ++ compact item ++ .char '\x7d' :: rest) =
      .ok (.record (Value.setEntry name item done), rest) := by
  obtain ⟨first, tail, hHead, hBlank, -⟩ := hItem.exists_head (.char '\x7d' :: rest)
  have hRead := hItem bound _ hBound (endsValue_brace rest)
  rw [fieldText_append, members, string_escapes hName]
  simp only [skipBlanks_of_head (rfl : isBlank (.char ':') = false), skipBlanks_space hHead hBlank,
    hRead, skipBlanks_of_head (rfl : isBlank (.char '\x7d') = false)]

theorem members_more {input : Text} {start : CodePoint} {tail : Text}
    (hInput : input = start :: tail) (hStart : isBlank start = false) :
    members (bound + 1) done
        (quote name ++ ": " ++ compact item ++ .char ',' :: .char ' ' :: input) =
      members bound (Value.setEntry name item done) input := by
  obtain ⟨first, tail, hHead, hBlank, -⟩ := hItem.exists_head (.char ',' :: .char ' ' :: input)
  have hRead := hItem bound _ hBound (endsValue_comma (.char ' ' :: input))
  rw [fieldText_append, members, string_escapes hName]
  simp only [skipBlanks_of_head (rfl : isBlank (.char ':') = false), skipBlanks_space hHead hBlank,
    hRead, skipBlanks_of_head (rfl : isBlank (.char ',') = false), skipBlanks_space hInput hStart]

end Fields

theorem exists_head_fields (entry : Text × Value) (others : List (Text × Value)) (rest : Text) :
    ∃ tail, Text.join ", " (compactFields (entry :: others)) ++ rest = .char '\x22' :: tail := by
  obtain ⟨name, item⟩ := entry
  obtain ⟨behind, hJoin⟩ :=
    exists_join_cons (quote name ++ ": " ++ compact item) (compactFields others)
  rw [compactFields, hJoin]
  exact ⟨_, rfl⟩

theorem members_compactFields {fields : List (Text × Value)}
    (hNames : ∀ entry ∈ fields, entry.1.IsJoined) (hValues : ∀ entry ∈ fields, ReadsBack entry.2)
    (hSome : fields ≠ []) (bound : Nat) (done : List (Text × Value)) (rest : Text)
    (hDistinct : ((done ++ fields).map Prod.fst).Nodup)
    (hBound : (Text.join ", " (compactFields fields)).length < bound) :
    members bound done (Text.join ", " (compactFields fields) ++ .char '\x7d' :: rest) =
      .ok (.record (done ++ fields), rest) := by
  induction fields generalizing bound done with
  | nil => exact absurd rfl hSome
  | cons entry others ih =>
      obtain ⟨name, item⟩ := entry
      obtain ⟨bound, rfl⟩ : ∃ fewer, bound = fewer + 1 := ⟨bound - 1, by omega⟩
      have hName : name.IsJoined := hNames (name, item) List.mem_cons_self
      have hItem : ReadsBack item := hValues (name, item) List.mem_cons_self
      have hEntry : Value.setEntry name item done = done ++ [(name, item)] := by
        apply Value.setEntry_of_not_mem
        rw [List.map_append, List.map_cons, List.nodup_append] at hDistinct
        exact fun hMember => hDistinct.2.2 name hMember name List.mem_cons_self rfl
      cases others with
      | nil =>
          rw [compactFields, compactFields, Text.join_singleton] at hBound ⊢
          rw [List.length_append] at hBound
          rw [members_last hName hItem (by omega), hEntry]
      | cons next others =>
          obtain ⟨tail, hHead⟩ := exists_head_fields next others (.char '\x7d' :: rest)
          have hJoin : Text.join ", " (compactFields ((name, item) :: next :: others)) =
              quote name ++ ": " ++ compact item ++ .char ',' :: .char ' ' ::
                Text.join ", " (compactFields (next :: others)) := by
            obtain ⟨nextName, nextItem⟩ := next
            rw [compactFields, compactFields, Text.join_cons_cons, comma_append]
          rw [hJoin, List.length_append, List.length_append, List.length_cons, List.length_cons]
            at hBound
          rw [hJoin, List.append_assoc, List.cons_append, List.cons_append,
            members_more hName hItem (by omega) done hHead rfl, hEntry, ih]
          · rw [List.append_assoc, List.singleton_append]
          · exact fun entry hMember => hNames entry (List.mem_cons_of_mem _ hMember)
          · exact fun entry hMember => hValues entry (List.mem_cons_of_mem _ hMember)
          · exact List.cons_ne_nil _ _
          · rwa [List.append_assoc, List.singleton_append]
          · omega

theorem readsBack_record {fields : List (Text × Value)}
    (hDistinct : (fields.map Prod.fst).Nodup) (hNames : ∀ entry ∈ fields, entry.1.IsJoined)
    (hValues : ∀ entry ∈ fields, ReadsBack entry.2) : ReadsBack (.record fields) := by
  apply readsBack_of_succ
  intro bound rest hBound hRest
  have hText : compact (.record fields) ++ rest =
      .char '\x7b' :: (Text.join ", " (compactFields fields) ++ .char '\x7d' :: rest) := by
    rw [compact, List.append_assoc, List.append_assoc]
    rfl
  have hLength : (Text.join ", " (compactFields fields)).length + 2 ≤ bound + 1 := by
    rw [compact, List.length_append, List.length_append] at hBound
    change 1 + _ + 1 ≤ bound + 1 at hBound
    omega
  rw [hText]
  cases fields with
  | nil => rfl
  | cons entry others =>
      obtain ⟨tail, hHead⟩ := exists_head_fields entry others (.char '\x7d' :: rest)
      have hMembers := members_compactFields hNames hValues (List.cons_ne_nil _ _) bound [] rest
        hDistinct (by omega)
      rw [hHead] at hMembers ⊢
      exact hMembers

theorem Legible.readsBack {item : Value} (hLegible : Legible item) : ReadsBack item := by
  induction hLegible with
  | null => exact readsBack_of_succ fun _ _ _ _ => rfl
  | boolean flag => cases flag <;> exact readsBack_of_succ fun _ _ _ _ => rfl
  | integer hWritable =>
      exact readsBack_of_succ fun bound _ _ hRest => value_integer hWritable hRest bound
  | real hProper => exact readsBack_of_succ fun bound _ _ hRest => value_real hProper hRest bound
  | text hJoined =>
      apply readsBack_of_succ
      intro bound rest _ _
      rw [compact, quote_append, value, string_escapes hJoined]
  | list _ ih => exact readsBack_list ih
  | record hDistinct hNames _ ih => exact readsBack_record hDistinct hNames ih

/-- Writing a value and reading the text gives the value back. -/
theorem parse_compact {item : Value} (hLegible : Legible item) :
    parse (compact item) = .ok item := by
  have hItem := hLegible.readsBack
  obtain ⟨first, rest, hText, hBlank, -⟩ := hItem.exists_head []
  have hRead := hItem (2 * (compact item).length + 2) [] (by omega) endsValue_nil
  rw [List.append_nil] at hText hRead
  have hDocument : document (compact item) = .ok item := by
    rw [hText] at hRead ⊢
    rw [document, skipBlanks_of_head hBlank, hRead]
    · rfl
    · rintro tail ⟨⟩
      cases hRead
  rw [parse, hDocument]

end LogicSignature.Json
