import LogicSignature.Proofs.BlockGrammar

/-
The constants inside byte blocks.

Where the constant of an entry begins and ends follows from the bytes in front of it. So a block
stays a block of the same size when bytes of its constants are replaced, all others being kept.
-/

namespace LogicSignature

/-- Byte sequences of one length that agree where no byte is free to differ. -/
structure AgreeOutside (free : Nat → Prop) (bytes other : List UInt8) : Prop where
  length : other.length = bytes.length
  same : ∀ index, ¬ free index → other[index]? = bytes[index]?

namespace AgreeOutside

variable {free : Nat → Prop} {bytes other : List UInt8}

theorem refl (free : Nat → Prop) (bytes : List UInt8) : AgreeOutside free bytes bytes :=
  ⟨rfl, fun _ _ => rfl⟩

theorem set (hAgree : AgreeOutside free bytes other) {index : Nat} (hFree : free index)
    (byte : UInt8) : AgreeOutside free bytes (other.set index byte) := by
  refine ⟨by rw [List.length_set, hAgree.length], ?_⟩
  intro place hKept
  have hOther : index ≠ place := by
    intro hSame
    rw [hSame] at hFree
    exact hKept hFree
  rw [List.getElem?_set_ne hOther]
  exact hAgree.same place hKept

theorem mono {wider : Nat → Prop} (hAgree : AgreeOutside free bytes other)
    (hWider : ∀ index < bytes.length, free index → wider index) :
    AgreeOutside wider bytes other := by
  refine ⟨hAgree.length, ?_⟩
  intro index hKept
  by_cases hInside : index < bytes.length
  · exact hAgree.same index (fun hFree => hKept (hWider index hInside hFree))
  · have hLength := hAgree.length
    rw [List.getElem?_eq_none (by omega), List.getElem?_eq_none (by omega)]

theorem eq_of_not_free (hAgree : AgreeOutside free bytes other)
    (hKept : ∀ index < bytes.length, ¬ free index) : other = bytes := by
  have hNone : AgreeOutside (fun _ => False) bytes other :=
    hAgree.mono (fun index hInside hFree => hKept index hInside hFree)
  apply List.ext_getElem?
  intro index
  exact hNone.same index id

theorem drop (hAgree : AgreeOutside free bytes other) (count : Nat) :
    AgreeOutside (fun index => free (count + index)) (bytes.drop count) (other.drop count) := by
  refine ⟨by rw [List.length_drop, List.length_drop, hAgree.length], ?_⟩
  intro index hKept
  rw [List.getElem?_drop, List.getElem?_drop]
  exact hAgree.same (count + index) hKept

theorem take (hAgree : AgreeOutside free bytes other) (count : Nat) :
    AgreeOutside free (bytes.take count) (other.take count) := by
  refine ⟨by rw [List.length_take, List.length_take, hAgree.length], ?_⟩
  intro index hKept
  rw [List.getElem?_take, List.getElem?_take, hAgree.same index hKept]

theorem split {left right : List UInt8} (hAgree : AgreeOutside free (left ++ right) other) :
    ∃ otherLeft otherRight, other = otherLeft ++ otherRight ∧ AgreeOutside free left otherLeft ∧
      AgreeOutside (fun index => free (left.length + index)) right otherRight := by
  have hLeft := hAgree.take left.length
  have hRight := hAgree.drop left.length
  rw [List.take_left] at hLeft
  rw [List.drop_left] at hRight
  exact ⟨_, _, (List.take_append_drop left.length other).symm, hLeft, hRight⟩

end AgreeOutside

namespace ConstBlock

/-- A byte of an entry, behind the encoding of the length. -/
def InConstant (entry : List UInt8) (offset : Nat) : Prop :=
  ∃ head constant, entry = head ++ constant ∧ Varint.Spells head constant.length ∧
    head.length ≤ offset ∧ offset < entry.length

/-- A byte of a row of entries, in the constant of one of them. -/
def InSomeConstant (items : List (List UInt8)) (offset : Nat) : Prop :=
  ∃ before entry after place, items = before ++ entry :: after ∧ InConstant entry place ∧
    offset = before.flatten.length + place

/-- A byte of a byte block, counted from the opcode, in the constant of an entry. -/
def PayloadAt (block : List UInt8) (offset : Nat) : Prop :=
  ∃ opcode head items place, block = opcode :: (head ++ List.flatten items) ∧
    Varint.Spells head items.length ∧ (∀ item ∈ items, EntryForm .bytes item) ∧
    InSomeConstant items place ∧ offset = 1 + head.length + place

theorem InSomeConstant.lt_length {items : List (List UInt8)} {offset : Nat}
    (hOffset : InSomeConstant items offset) : offset < items.flatten.length := by
  obtain ⟨before, entry, after, place, hItems, ⟨_, _, _, _, _, hInside⟩, hPlace⟩ := hOffset
  rw [hItems, List.flatten_append, List.flatten_cons, List.length_append, List.length_append]
  omega

theorem PayloadAt.blockForm {block : List UInt8} {offset : Nat}
    (hPayload : PayloadAt block offset) :
    BlockForm .bytes block ∧ 0 < offset ∧ offset < block.length := by
  obtain ⟨opcode, head, items, place, hBlock, hCount, hItems, hPlace, hOffset⟩ := hPayload
  have hInside := hPlace.lt_length
  rw [hBlock, List.length_cons, List.length_append]
  exact ⟨.intro opcode _ (.intro head items hCount hItems), by omega, by omega⟩

/-! ### There is one way to read a block -/

theorem length_eq_of_spells {head other rest tail : List UInt8} {number otherNumber : Nat}
    (hHead : Varint.Spells head number) (hOther : Varint.Spells other otherNumber)
    (hSame : head ++ rest = other ++ tail) : number = otherNumber ∧ head.length = other.length := by
  have hDecode := hHead.decode_append rest
  rw [hSame, hOther.decode_append tail] at hDecode
  obtain ⟨hNumber, hLength⟩ := Varint.Outcome.decoded.inj hDecode
  exact ⟨hNumber.symm, hLength.symm⟩

theorem EntryForm.length_eq {kind : BlockKind} {entry other rest tail : List UInt8}
    (hEntry : EntryForm kind entry) (hOther : EntryForm kind other)
    (hSame : entry ++ rest = other ++ tail) : entry.length = other.length := by
  have hWalk := hEntry.entries_eq 0 0 0 rest
  rw [hSame, hOther.entries_eq, entries, entries, Nat.zero_add, Nat.zero_add] at hWalk
  exact (Except.ok.inj hWalk).symm

theorem items_unique {kind : BlockKind} {items others : List (List UInt8)}
    (hItems : ∀ item ∈ items, EntryForm kind item) (hOthers : ∀ item ∈ others, EntryForm kind item)
    (hCount : items.length = others.length) (hSame : items.flatten = others.flatten) :
    items = others := by
  induction items generalizing others with
  | nil => exact (List.length_eq_zero_iff.mp hCount.symm).symm
  | cons entry items ih =>
      cases others with
      | nil => cases hCount
      | cons other others =>
          rw [List.flatten_cons, List.flatten_cons] at hSame
          have hLength := (hItems entry List.mem_cons_self).length_eq
            (hOthers other List.mem_cons_self) hSame
          obtain ⟨hEntry, hRest⟩ := List.append_inj hSame hLength
          have hTail := ih (fun item hItem => hItems item (List.mem_cons_of_mem entry hItem))
            (fun item hItem => hOthers item (List.mem_cons_of_mem other hItem))
            (Nat.succ.inj hCount) hRest
          rw [hEntry, hTail]

theorem payloadAt_iff {opcode : UInt8} {head : List UInt8} {items : List (List UInt8)}
    (hCount : Varint.Spells head items.length) (hItems : ∀ item ∈ items, EntryForm .bytes item)
    (offset : Nat) :
    PayloadAt (opcode :: (head ++ items.flatten)) offset ↔
      ∃ place, InSomeConstant items place ∧ offset = 1 + head.length + place := by
  constructor
  · rintro ⟨_, other, others, place, hBlock, hOtherCount, hOthers, hPlace, hOffset⟩
    have hBody : head ++ items.flatten = other ++ others.flatten := (List.cons.inj hBlock).2
    obtain ⟨hNumber, hLength⟩ := length_eq_of_spells hCount hOtherCount hBody
    obtain ⟨_, hFlat⟩ := List.append_inj hBody hLength
    have hSame := items_unique hItems hOthers hNumber hFlat
    subst hSame
    exact ⟨place, hPlace, by rw [hOffset, hLength]⟩
  · rintro ⟨place, hPlace, hOffset⟩
    exact ⟨opcode, head, items, place, rfl, hCount, hItems, hPlace, hOffset⟩

/-! ### Replaced constants -/

theorem EntryForm.of_agreeOutside {entry other : List UInt8} (hEntry : EntryForm .bytes entry)
    (hAgree : AgreeOutside (InConstant entry) entry other) : EntryForm .bytes other := by
  cases hEntry with
  | bytes head constant hSpells =>
      obtain ⟨otherHead, otherConstant, hOther, hHead, hConstant⟩ := hAgree.split
      have hSame : otherHead = head := by
        apply hHead.eq_of_not_free
        rintro index hIndex ⟨otherHead, _, hEntry, hOtherSpells, hBehind, _⟩
        obtain ⟨_, hLength⟩ := length_eq_of_spells hSpells hOtherSpells hEntry
        omega
      rw [hOther, hSame]
      exact .bytes head otherConstant (by rw [hConstant.length]; exact hSpells)

theorem inSomeConstant_cons {entry : List UInt8} {items : List (List UInt8)} {offset : Nat}
    (hOffset : InSomeConstant (entry :: items) offset) :
    InConstant entry offset ∨
      ∃ place, InSomeConstant items place ∧ offset = entry.length + place := by
  obtain ⟨before, found, after, place, hItems, hFound, hPlace⟩ := hOffset
  cases before with
  | nil =>
      obtain ⟨hSame, _⟩ := List.cons.inj hItems
      rw [hPlace, hSame, List.flatten_nil, List.length_nil, Nat.zero_add]
      exact .inl hFound
  | cons first before =>
      obtain ⟨hSame, hRest⟩ := List.cons.inj hItems
      refine .inr ⟨before.flatten.length + place, ⟨before, found, after, place, hRest, hFound, rfl⟩,
        ?_⟩
      rw [hPlace, hSame, List.flatten_cons, List.length_append, Nat.add_assoc]

theorem exists_items_of_agreeOutside {items : List (List UInt8)}
    (hItems : ∀ item ∈ items, EntryForm .bytes item) {bytes : List UInt8}
    (hAgree : AgreeOutside (InSomeConstant items) items.flatten bytes) :
    ∃ others, bytes = List.flatten others ∧ others.length = items.length ∧
      ∀ item ∈ others, EntryForm .bytes item := by
  induction items generalizing bytes with
  | nil =>
      have hNone : bytes = [] := List.length_eq_zero_iff.mp hAgree.length
      exact ⟨[], hNone, rfl, by simp⟩
  | cons entry items ih =>
      rw [List.flatten_cons] at hAgree
      obtain ⟨other, rest, hBytes, hEntry, hRest⟩ := hAgree.split
      have hOther : EntryForm .bytes other := by
        apply (hItems entry List.mem_cons_self).of_agreeOutside
        apply hEntry.mono
        intro index hIndex hFree
        rcases inSomeConstant_cons hFree with hHere | ⟨place, _, hPlace⟩
        · exact hHere
        · omega
      have hLater : AgreeOutside (InSomeConstant items) items.flatten rest := by
        apply hRest.mono
        intro index _ hFree
        rcases inSomeConstant_cons hFree with hHere | ⟨place, hLater, hPlace⟩
        · obtain ⟨_, _, _, _, _, hInside⟩ := hHere
          omega
        · rwa [show index = place by omega]
      obtain ⟨others, hFlat, hCount, hOthers⟩ :=
        ih (fun item hItem => hItems item (List.mem_cons_of_mem entry hItem)) hLater
      refine ⟨other :: others, by rw [hBytes, hFlat, List.flatten_cons], ?_, ?_⟩
      · rw [List.length_cons, List.length_cons, hCount]
      · intro item hItem
        rcases List.mem_cons.mp hItem with hSame | hTail
        · rwa [hSame]
        · exact hOthers item hTail

/-- A block with other bytes in its constants is a block. Only byte blocks have any. -/
theorem BlockForm.of_agreeOutside {kind : BlockKind} {block other : List UInt8}
    (hForm : BlockForm kind block)
    (hAgree : AgreeOutside (fun offset => kind = .bytes ∧ PayloadAt block offset) block other) :
    BlockForm kind other := by
  cases kind with
  | integers =>
      have hSame : other = block := hAgree.eq_of_not_free (fun _ _ hFree => nomatch hFree.1)
      rwa [hSame]
  | bytes =>
      cases hForm with
      | intro opcode body hBody =>
          cases hBody with
          | intro head items hCount hItems =>
              change AgreeOutside _ ([opcode] ++ (head ++ items.flatten)) other at hAgree
              obtain ⟨first, rest, hOther, hFirst, hRest⟩ := hAgree.split
              obtain ⟨otherHead, flat, hBody, hHead, hFlat⟩ := hRest.split
              obtain ⟨otherOpcode, hOpcode⟩ := List.length_eq_one_iff.mp hFirst.length
              -- The count stands in front of all constants, and is kept.
              have hSame : otherHead = head := by
                apply hHead.eq_of_not_free
                rintro index hIndex ⟨_, hPayload⟩
                obtain ⟨place, _, hPlace⟩ := (payloadAt_iff hCount hItems _).mp hPayload
                rw [List.length_singleton] at hPlace
                omega
              have hConstants : AgreeOutside (InSomeConstant items) items.flatten flat := by
                apply hFlat.mono
                rintro index _ ⟨_, hPayload⟩
                obtain ⟨place, hConstant, hPlace⟩ := (payloadAt_iff hCount hItems _).mp hPayload
                rw [List.length_singleton] at hPlace
                rwa [show index = place by omega]
              obtain ⟨others, hOthers, hLength, hForms⟩ :=
                exists_items_of_agreeOutside hItems hConstants
              rw [hOther, hOpcode, hBody, hSame, hOthers]
              exact .intro otherOpcode _ (.intro head others (by rwa [hLength]) hForms)

end ConstBlock

end LogicSignature
