import LogicSignature.Opcode.Table

/-
What an opcode table holds after it was built: the last descriptor of each opcode. Descriptors whose
numbers were given as integers keep them so, and a table of such descriptors holds no others.
-/

namespace LogicSignature.Opcode

namespace Descriptor

/-- A descriptor holds what it was built from. -/
theorem eq_of_make_eq_ok {opcode : Int} {cost size : Quantity} {name : Text}
    {block : Option BlockKind} {descriptor : Descriptor}
    (hMake : make opcode cost size name block = .ok descriptor) :
    opcode = descriptor.opcode.toNat ∧ descriptor.cost = cost ∧ descriptor.size = size ∧
      descriptor.name = name ∧ descriptor.block = block := by
  unfold make at hMake
  split at hMake
  · cases hMake
  · rename_i hRange
    split at hMake
    · cases hMake
    · split at hMake
      · cases hMake
      · cases hMake
        refine ⟨?_, rfl, rfl, rfl, rfl⟩
        rw [UInt8.toNat_ofNat']
        omega

theorem fields_of_make_eq_ok {opcode : Int} {cost size : Quantity} {name : Text}
    {block : Option BlockKind} {descriptor : Descriptor}
    (hMake : make opcode cost size name block = .ok descriptor) :
    descriptor.cost = cost ∧ descriptor.size = size ∧ descriptor.block = block := by
  obtain ⟨_, hCost, hSize, _, hBlock⟩ := eq_of_make_eq_ok hMake
  exact ⟨hCost, hSize, hBlock⟩

/-- A descriptor that was built from integers. -/
def IsInteger (descriptor : Descriptor) : Prop :=
  ∃ (opcode cost size : Int) (name : Text) (block : Option BlockKind),
    make opcode (.integer cost) (.integer size) name block = .ok descriptor

theorem IsInteger.exists_numbers {descriptor : Descriptor} (hInteger : descriptor.IsInteger) :
    ∃ cost size : Int, descriptor.cost = .integer cost ∧ descriptor.size = .integer size := by
  obtain ⟨opcode, cost, size, name, block, hMake⟩ := hInteger
  obtain ⟨hCost, hSize, _⟩ := fields_of_make_eq_ok hMake
  exact ⟨cost, size, hCost, hSize⟩

end Descriptor

namespace Table

/-- A table whose descriptors were all built from integers. -/
def IsInteger (table : Table) : Prop :=
  ∀ opcode descriptor, table.get? opcode = some descriptor → descriptor.IsInteger

/-- A table whose costs are all integers. -/
def HasIntegerCosts (table : Table) : Prop :=
  ∀ opcode descriptor, table.get? opcode = some descriptor →
    ∃ cost : Int, descriptor.cost = .integer cost

theorem IsInteger.hasIntegerCosts {table : Table} (hTable : table.IsInteger) :
    table.HasIntegerCosts := by
  intro opcode descriptor hGet
  obtain ⟨cost, size, hCost, hSize⟩ := (hTable opcode descriptor hGet).exists_numbers
  exact ⟨cost, hCost⟩

theorem get_place (slots : Vector (Option Descriptor) 256) (descriptor : Descriptor)
    (opcode : UInt8) :
    (place slots descriptor).get ⟨opcode.toNat, opcode.toNat_lt⟩ =
      if descriptor.opcode = opcode then some descriptor
      else slots.get ⟨opcode.toNat, opcode.toNat_lt⟩ := by
  by_cases hSame : descriptor.opcode = opcode
  · subst hSame
    rw [if_pos rfl, place]
    exact Vector.getElem_set_self _
  · have hOther : descriptor.opcode.toNat ≠ opcode.toNat :=
      fun hEqual => hSame (UInt8.toNat_inj.mp hEqual)
    rw [if_neg hSame, place]
    exact Vector.getElem_set_ne _ _ hOther

/-- A slot holds the last descriptor that was placed into it. -/
theorem get_foldl_place (descriptors : List Descriptor) (slots : Vector (Option Descriptor) 256)
    (opcode : UInt8) :
    (descriptors.foldl place slots).get ⟨opcode.toNat, opcode.toNat_lt⟩ =
      (descriptors.reverse.find? (fun descriptor => descriptor.opcode = opcode)).or
        (slots.get ⟨opcode.toNat, opcode.toNat_lt⟩) := by
  induction descriptors generalizing slots with
  | nil => rfl
  | cons descriptor rest ih =>
      -- Reversed, the first descriptor comes last, where it counts only if no other one does.
      rw [List.foldl_cons, ih, get_place, List.reverse_cons, List.find?_append, Option.or_assoc]
      congr 1
      by_cases hSame : descriptor.opcode = opcode <;> simp [hSame]

theorem get?_ofDescriptors (descriptors : List Descriptor)
    (evalMaxVersion logicSigVersion : Quantity) (opcode : UInt8) :
    (ofDescriptors descriptors evalMaxVersion logicSigVersion).get? opcode =
      descriptors.reverse.find? (fun descriptor => descriptor.opcode = opcode) := by
  have hEmpty : emptySlots.get ⟨opcode.toNat, opcode.toNat_lt⟩ = none :=
    Vector.getElem_replicate _
  rw [get?, ofDescriptors]
  simp only
  rw [get_foldl_place, hEmpty, Option.or_none]

/-- Every descriptor stands in the slot of its opcode. -/
def IsFiled (table : Table) : Prop :=
  ∀ opcode descriptor, table.get? opcode = some descriptor → descriptor.opcode = opcode

theorem isFiled_ofDescriptors (descriptors : List Descriptor)
    (evalMaxVersion logicSigVersion : Quantity) :
    (ofDescriptors descriptors evalMaxVersion logicSigVersion).IsFiled := by
  intro opcode descriptor hGet
  rw [get?_ofDescriptors] at hGet
  have hSame := List.find?_some hGet
  exact of_decide_eq_true hSame

theorem toList_eq_filterMap (table : Table) :
    table.toList = (List.finRange 256).filterMap table.slots.get := by
  have hSlots : table.slots.toList = (List.finRange 256).map table.slots.get := by
    apply List.ext_getElem
    · simp
    · intro index hLeft hRight
      rw [List.getElem_map, List.getElem_finRange, Vector.getElem_toList]
      rfl
  rw [toList, hSlots, List.filterMap_map]
  rfl

theorem get?_eq_get (table : Table) (index : Fin 256) :
    table.get? (UInt8.ofFin index) = table.slots.get index := rfl

theorem mem_toList_iff (table : Table) (descriptor : Descriptor) :
    descriptor ∈ table.toList ↔ ∃ opcode, table.get? opcode = some descriptor := by
  rw [toList_eq_filterMap, List.mem_filterMap]
  constructor
  · rintro ⟨index, _, hGet⟩
    exact ⟨UInt8.ofFin index, hGet⟩
  · rintro ⟨opcode, hGet⟩
    exact ⟨opcode.toFin, List.mem_finRange _, hGet⟩

/-- The descriptors of a table stand in the order of their opcodes. -/
theorem IsFiled.pairwise_toList {table : Table} (hFiled : table.IsFiled) :
    (table.toList.map Descriptor.opcode).Pairwise (· < ·) := by
  rw [toList_eq_filterMap, List.pairwise_map, List.pairwise_filterMap]
  refine (List.pairwise_lt_finRange 256).imp ?_
  intro left right hLess first hFirst second hSecond
  rw [← get?_eq_get] at hFirst hSecond
  rw [hFiled _ _ hFirst, hFiled _ _ hSecond]
  exact hLess

theorem mem_of_get?_ofDescriptors {descriptors : List Descriptor}
    {evalMaxVersion logicSigVersion : Quantity} {opcode : UInt8} {descriptor : Descriptor}
    (hGet : (ofDescriptors descriptors evalMaxVersion logicSigVersion).get? opcode =
      some descriptor) :
    descriptor ∈ descriptors := by
  rw [get?_ofDescriptors] at hGet
  exact List.mem_reverse.mp (List.mem_of_find?_eq_some hGet)

theorem isInteger_ofDescriptors {descriptors : List Descriptor}
    (hIntegers : ∀ descriptor ∈ descriptors, descriptor.IsInteger)
    (evalMaxVersion logicSigVersion : Quantity) :
    (ofDescriptors descriptors evalMaxVersion logicSigVersion).IsInteger := by
  intro opcode descriptor hGet
  exact hIntegers descriptor (mem_of_get?_ofDescriptors hGet)

end Table

end LogicSignature.Opcode
