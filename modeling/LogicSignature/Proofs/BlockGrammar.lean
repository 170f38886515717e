import LogicSignature.ConstBlock
import LogicSignature.Proofs.VarintDecoding

/-
The grammar of constant blocks, and the walk over them.

Behind its opcode a block has the encoding of a count and then that many entries. An entry is an
encoding of a number, or the encoding of a length and that many bytes. Where no block stands, there
is a first fault: the count cannot be read, or some entries stand there and the next one does not.
Measuring succeeds exactly where a block stands, with the number of its bytes, and fails exactly
with the first fault. So a measured block never reaches beyond the bytes at hand.
-/

namespace LogicSignature.ConstBlock

/-- The bytes of one entry. -/
inductive EntryForm : BlockKind → List UInt8 → Prop
  | integer (encoding : List UInt8) (number : Nat) (hSpells : Varint.Spells encoding number) :
      EntryForm .integers encoding
  | bytes (head constant : List UInt8) (hSpells : Varint.Spells head constant.length) :
      EntryForm .bytes (head ++ constant)

/-- The bytes of a block behind its opcode. -/
inductive BodyForm (kind : BlockKind) : List UInt8 → Prop
  | intro (head : List UInt8) (items : List (List UInt8))
      (hCount : Varint.Spells head items.length) (hItems : ∀ item ∈ items, EntryForm kind item) :
      BodyForm kind (head ++ items.flatten)

/-- The bytes of a whole block. -/
inductive BlockForm (kind : BlockKind) : List UInt8 → Prop
  | intro (opcode : UInt8) (body : List UInt8) (hBody : BodyForm kind body) :
      BlockForm kind (opcode :: body)

/-- Why no encoding of a number stands at the start of bytes, which are at an offset of a block:
they continue up to their end, or beyond the width of a number. -/
inductive Misspelt (offset : Nat) (bytes : List UInt8) : Reason → Prop
  | truncated (hReading : Varint.Reading bytes .exhausted) :
      Misspelt offset bytes (.truncated offset)
  | malformed (examined : Nat) (hReading : Varint.Reading bytes (.malformed examined)) :
      Misspelt offset bytes (.malformed offset)

/-- Why no entry stands at the start of bytes: there are none, they start with no number, or the
constant is longer than what is left. -/
inductive NoEntry (offset : Nat) : BlockKind → List UInt8 → Reason → Prop
  | pastEnd (kind : BlockKind) : NoEntry offset kind [] .pastEnd
  | misspelt (kind : BlockKind) {bytes : List UInt8} {reason : Reason} (hFilled : bytes ≠ [])
      (hMisspelt : Misspelt offset bytes reason) : NoEntry offset kind bytes reason
  | longConstant (head rest : List UInt8) (length : Nat) (hSpells : Varint.Spells head length)
      (hRoom : rest.length < length) : NoEntry offset .bytes (head ++ rest) (.longConstant length)

/-- The first fault of the bytes behind an opcode. The index is the number of the entries in front
of the missing one, and there is none if the count is missing. -/
inductive FirstFault (kind : BlockKind) : List UInt8 → Fault → Prop
  | count {bytes : List UInt8} {reason : Reason} (hMisspelt : Misspelt 1 bytes reason) :
      FirstFault kind bytes ⟨none, reason⟩
  | entry (head rest : List UInt8) (items : List (List UInt8)) (count : Nat) {reason : Reason}
      (hCount : Varint.Spells head count) (hFewer : items.length < count)
      (hItems : ∀ item ∈ items, EntryForm kind item)
      (hNone : NoEntry (1 + head.length + items.flatten.length) kind rest reason) :
      FirstFault kind (head ++ (items.flatten ++ rest)) ⟨some items.length, reason⟩

/-! ### One entry -/

theorem EntryForm.entries_eq {kind : BlockKind} {entry : List UInt8} (hEntry : EntryForm kind entry)
    (count index size : Nat) (rest : List UInt8) :
    entries kind (count + 1) index size (entry ++ rest) =
      entries kind count (index + 1) (size + entry.length) rest := by
  cases hEntry with
  | integer _ number hSpells =>
      have hPos := hSpells.length_pos
      have hFilled : (entry ++ rest).isEmpty = false := by
        cases entry with
        | nil => simp at hPos
        | cons => rfl
      rw [entries, hFilled, hSpells.decode_append rest]
      simp
  | bytes head constant hSpells =>
      have hPos := hSpells.length_pos
      have hFilled : (head ++ constant ++ rest).isEmpty = false := by
        cases head with
        | nil => simp at hPos
        | cons => rfl
      have hRoom : ¬ (constant ++ rest).length < constant.length := by simp
      have hBehind : (head ++ constant ++ rest).drop (head.length + constant.length) = rest := by
        rw [← List.length_append, List.drop_left]
      rw [entries, hFilled, List.append_assoc, hSpells.decode_append (constant ++ rest)]
      simp only [Bool.false_eq_true, if_false, List.drop_left, if_neg hRoom]
      rw [← List.append_assoc, hBehind, List.length_append, Nat.add_assoc]

theorem Misspelt.decode_eq {offset : Nat} {bytes : List UInt8} {reason : Reason}
    (hMisspelt : Misspelt offset bytes reason) :
    (Varint.decode bytes = .exhausted ∧ reason = .truncated offset) ∨
      ∃ examined, Varint.decode bytes = .malformed examined ∧ reason = .malformed offset := by
  cases hMisspelt with
  | truncated hReading => exact .inl ⟨hReading.decode_eq, rfl⟩
  | malformed examined hReading => exact .inr ⟨examined, hReading.decode_eq, rfl⟩

theorem NoEntry.entries_eq {size : Nat} {kind : BlockKind} {bytes : List UInt8} {reason : Reason}
    (hNone : NoEntry size kind bytes reason) (count index : Nat) :
    entries kind (count + 1) index size bytes = .error ⟨some index, reason⟩ := by
  rw [entries]
  cases hNone with
  | pastEnd => rfl
  | misspelt _ hFilled hMisspelt =>
      rw [if_neg (by simpa using hFilled)]
      rcases hMisspelt.decode_eq with ⟨hDecode, rfl⟩ | ⟨examined, hDecode, rfl⟩
      · rw [hDecode]
      · rw [hDecode]
  | longConstant head rest length hSpells hRoom =>
      have hPos := hSpells.length_pos
      have hFilled : head ++ rest ≠ [] := by
        rw [← List.length_pos_iff_ne_nil, List.length_append]
        omega
      rw [if_neg (by simpa using hFilled), hSpells.decode_append rest]
      simp only [List.drop_left, if_pos hRoom]

/-! ### A walk and a whole block -/

/-- A walk goes on behind the entries that stand in front. -/
theorem entries_items (kind : BlockKind) (items : List (List UInt8))
    (hItems : ∀ item ∈ items, EntryForm kind item) (count index size : Nat) (rest : List UInt8) :
    entries kind (items.length + count) index size (items.flatten ++ rest) =
      entries kind count (index + items.length) (size + items.flatten.length) rest := by
  induction items generalizing index size with
  | nil => rw [List.length_nil, Nat.zero_add]; rfl
  | cons entry items ih =>
      obtain ⟨hEntry, hOthers⟩ := List.forall_mem_cons.mp hItems
      rw [List.length_cons, List.flatten_cons, List.append_assoc, Nat.add_right_comm,
        hEntry.entries_eq, ih hOthers, List.length_append]
      congr 1 <;> omega

theorem BodyForm.measure_eq {kind : BlockKind} {body : List UInt8} (hBody : BodyForm kind body)
    (rest : List UInt8) : measure kind (body ++ rest) = .ok (1 + body.length) := by
  cases hBody with
  | intro head items hCount hItems =>
      rw [List.append_assoc, measure, hCount.decode_append]
      simp only [List.drop_left]
      have hWalk := entries_items kind items hItems 0 0 (1 + head.length) rest
      rw [Nat.add_zero] at hWalk
      rw [hWalk, entries, List.length_append, Nat.add_assoc]

theorem FirstFault.measure_eq {kind : BlockKind} {bytes : List UInt8} {fault : Fault}
    (hFault : FirstFault kind bytes fault) : measure kind bytes = .error fault := by
  rw [measure]
  cases hFault with
  | count hMisspelt =>
      rcases hMisspelt.decode_eq with ⟨hDecode, rfl⟩ | ⟨examined, hDecode, rfl⟩
      · rw [hDecode]
      · rw [hDecode]
  | entry head rest items count hCount hFewer hItems hNone =>
      obtain ⟨more, rfl⟩ := Nat.exists_eq_add_of_lt hFewer
      rw [hCount.decode_append]
      simp only [List.drop_left]
      rw [Nat.add_assoc, entries_items kind items hItems, hNone.entries_eq, Nat.zero_add]

/-! ### A block or a first fault -/

/-- At the start of bytes a number is spelt, or there is a reason why none is. -/
theorem exists_spells_or_misspelt (offset : Nat) (bytes : List UInt8) :
    (∃ encoding rest number, bytes = encoding ++ rest ∧ Varint.Spells encoding number) ∨
      ∃ reason, Misspelt offset bytes reason := by
  obtain ⟨outcome, hReading⟩ := Varint.exists_reading bytes
  cases outcome with
  | decoded number length =>
      obtain ⟨encoding, rest, hBytes, hSpells, _⟩ :=
        (Varint.decode_eq_decoded_iff _ _ _).mp hReading.decode_eq
      exact .inl ⟨encoding, rest, number, hBytes, hSpells⟩
  | exhausted => exact .inr ⟨_, .truncated hReading⟩
  | malformed examined => exact .inr ⟨_, .malformed examined hReading⟩

/-- At the start of bytes an entry stands, or there is a reason why none does. -/
theorem exists_entry_or_noEntry (offset : Nat) (kind : BlockKind) (bytes : List UInt8) :
    (∃ entry rest, bytes = entry ++ rest ∧ EntryForm kind entry) ∨
      ∃ reason, NoEntry offset kind bytes reason := by
  by_cases hEmpty : bytes = []
  · subst hEmpty
    exact .inr ⟨.pastEnd, .pastEnd kind⟩
  · rcases exists_spells_or_misspelt offset bytes with
      ⟨encoding, rest, number, hBytes, hSpells⟩ | ⟨reason, hMisspelt⟩
    · subst hBytes
      cases kind with
      | integers => exact .inl ⟨encoding, rest, rfl, .integer encoding number hSpells⟩
      | bytes =>
          by_cases hRoom : rest.length < number
          · exact .inr ⟨_, .longConstant encoding rest number hSpells hRoom⟩
          · have hTake : (rest.take number).length = number :=
              List.length_take_of_le (Nat.le_of_not_lt hRoom)
            refine .inl ⟨encoding ++ rest.take number, rest.drop number, ?_, ?_⟩
            · rw [List.append_assoc, List.take_append_drop]
            · exact .bytes encoding (rest.take number) (by rwa [hTake])
    · exact .inr ⟨reason, .misspelt kind hEmpty hMisspelt⟩

/-- As many entries as asked for stand at the start of bytes, or one of them is the first that does
not. -/
theorem exists_items_or_noEntry (offset : Nat) (kind : BlockKind) (count : Nat)
    (bytes : List UInt8) :
    ∃ items rest, bytes = List.flatten items ++ rest ∧ (∀ item ∈ items, EntryForm kind item) ∧
      (items.length = count ∨ items.length < count ∧
        ∃ reason, NoEntry (offset + items.flatten.length) kind rest reason) := by
  induction count generalizing offset bytes with
  | zero => exact ⟨[], bytes, rfl, by simp, .inl rfl⟩
  | succ count ih =>
      rcases exists_entry_or_noEntry offset kind bytes with
        ⟨entry, behind, hBytes, hEntry⟩ | ⟨reason, hNone⟩
      · obtain ⟨items, rest, hBehind, hItems, hEnd⟩ := ih (offset + entry.length) behind
        refine ⟨entry :: items, rest, ?_, List.forall_mem_cons.mpr ⟨hEntry, hItems⟩, ?_⟩
        · rw [hBytes, hBehind, List.flatten_cons, List.append_assoc]
        · rw [List.length_cons, List.flatten_cons, List.length_append, ← Nat.add_assoc]
          exact hEnd.imp (congrArg Nat.succ) (And.imp_left Nat.succ_lt_succ)
      · exact ⟨[], bytes, rfl, by simp, .inr ⟨Nat.succ_pos count, reason, hNone⟩⟩

theorem exists_body_or_firstFault (kind : BlockKind) (bytes : List UInt8) :
    (∃ body rest, bytes = body ++ rest ∧ BodyForm kind body) ∨
      ∃ fault, FirstFault kind bytes fault := by
  rcases exists_spells_or_misspelt 1 bytes with
    ⟨head, behind, count, hBytes, hCount⟩ | ⟨reason, hMisspelt⟩
  · obtain ⟨items, rest, hBehind, hItems, hAll | ⟨hFewer, reason, hNone⟩⟩ :=
      exists_items_or_noEntry (1 + head.length) kind count behind
    · subst hAll
      refine .inl ⟨head ++ items.flatten, rest, ?_, .intro head items hCount hItems⟩
      rw [hBytes, hBehind, List.append_assoc]
    · rw [hBytes, hBehind]
      exact .inr ⟨_, .entry head rest items count hCount hFewer hItems hNone⟩
  · exact .inr ⟨_, .count hMisspelt⟩

/-- Measuring succeeds exactly where a block body stands; the opcode counts as one more byte. -/
theorem measure_eq_ok_iff (kind : BlockKind) (bytes : List UInt8) (size : Nat) :
    measure kind bytes = .ok size ↔
      ∃ body rest, bytes = body ++ rest ∧ BodyForm kind body ∧ size = 1 + body.length := by
  constructor
  · intro hOk
    rcases exists_body_or_firstFault kind bytes with ⟨body, rest, rfl, hBody⟩ | ⟨fault, hFault⟩
    · rw [hBody.measure_eq] at hOk
      exact ⟨body, rest, rfl, hBody, (Except.ok.inj hOk).symm⟩
    · rw [hFault.measure_eq] at hOk
      cases hOk
  · rintro ⟨body, rest, rfl, hBody, rfl⟩
    exact hBody.measure_eq rest

/-- Measuring fails exactly with the first fault. -/
theorem measure_eq_error_iff (kind : BlockKind) (bytes : List UInt8) (fault : Fault) :
    measure kind bytes = .error fault ↔ FirstFault kind bytes fault := by
  constructor
  · intro hError
    rcases exists_body_or_firstFault kind bytes with ⟨body, rest, rfl, hBody⟩ | ⟨other, hOther⟩
    · rw [hBody.measure_eq] at hError
      cases hError
    · rw [hOther.measure_eq] at hError
      cases hError
      exact hOther
  · exact FirstFault.measure_eq

theorem BodyForm.length_pos {kind : BlockKind} {body : List UInt8} (hBody : BodyForm kind body) :
    0 < body.length := by
  cases hBody with
  | intro head items hCount hItems =>
      have hPos := hCount.length_pos
      rw [List.length_append]
      omega

/-- A block whose opcode stands in front of bytes has the size that measuring finds there. -/
theorem measure_eq_ok_iff_blockForm (kind : BlockKind) (opcode : UInt8) (bytes : List UInt8)
    (size : Nat) :
    measure kind bytes = .ok size ↔
      ∃ block rest, opcode :: bytes = block ++ rest ∧ BlockForm kind block ∧
        size = block.length := by
  rw [measure_eq_ok_iff]
  constructor
  · rintro ⟨body, rest, hBytes, hBody, hSize⟩
    refine ⟨opcode :: body, rest, by rw [hBytes, List.cons_append], .intro opcode body hBody, ?_⟩
    rw [hSize, List.length_cons, Nat.add_comm]
  · rintro ⟨block, rest, hBytes, hBlock, hSize⟩
    cases hBlock with
    | intro first body hBody =>
        rw [List.cons_append] at hBytes
        have hTail : bytes = body ++ rest := (List.cons.inj hBytes).2
        exact ⟨body, rest, hTail, hBody, by rw [hSize, List.length_cons, Nat.add_comm]⟩

end LogicSignature.ConstBlock
