import LogicSignature.Value.Display

/-
Values that can be written.

The only values without a text are those with an integer that has too many digits, at whatever
depth. So a value is shown exactly if it is writable, and there is one fault if it is not.
-/

namespace LogicSignature

namespace Value

/-- A value whose integers have few enough digits to be written. -/
inductive Writable : Value → Prop
  | null : Writable .null
  | boolean (flag : Bool) : Writable (.boolean flag)
  | integer {number : Int} (hShort : Numeral.isWritable number = true) : Writable (.integer number)
  | real (number : Binary64) : Writable (.real number)
  | text (content : Text) : Writable (.text content)
  | list {items : List Value} (hItems : ∀ item ∈ items, Writable item) : Writable (.list items)
  | record {fields : List (Text × Value)} (hFields : ∀ field ∈ fields, Writable field.2) :
      Writable (.record fields)

theorem writable_integer_iff {number : Int} :
    (Value.integer number).Writable ↔ Numeral.isWritable number = true := by
  constructor
  · rintro (_ | _ | hShort)
    exact hShort
  · exact .integer

theorem not_writable_writableBound : ¬ (Value.integer Numeral.writableBound).Writable := by
  rw [writable_integer_iff, Numeral.isWritable, decide_eq_true_iff, Int.natAbs_natCast]
  exact Nat.lt_irrefl _

theorem writable_list_iff {items : List Value} :
    (Value.list items).Writable ↔ ∀ item ∈ items, item.Writable := by
  constructor
  · rintro (_ | _ | _ | _ | _ | hItems)
    exact hItems
  · exact .list

theorem writable_record_iff {fields : List (Text × Value)} :
    (Value.record fields).Writable ↔ ∀ field ∈ fields, field.2.Writable := by
  constructor
  · rintro (_ | _ | _ | _ | _ | _ | hFields)
    exact hFields
  · exact .record

end Value

namespace Data

mutual

theorem isShowable_ofValue_iff (value : Value) :
    (ofValue value).isShowable = true ↔ value.Writable := by
  cases value with
  | null => exact ⟨fun _ => .null, fun _ => rfl⟩
  | boolean flag => exact ⟨fun _ => .boolean flag, fun _ => rfl⟩
  | integer number =>
      rw [Value.writable_integer_iff, ofValue, isShowable]
      rfl
  | real number => exact ⟨fun _ => .real number, fun _ => rfl⟩
  | text content => exact ⟨fun _ => .text content, fun _ => rfl⟩
  | list items =>
      rw [Value.writable_list_iff, ofValue, isShowable]
      exact allShowable_ofItems_iff items
  | record fields =>
      rw [Value.writable_record_iff, ofValue, isShowable]
      exact entriesShowable_ofFields_iff fields

theorem allShowable_ofItems_iff (items : List Value) :
    allShowable (ofItems items) = true ↔ ∀ item ∈ items, item.Writable := by
  cases items with
  | nil => exact ⟨fun _ => List.forall_mem_nil _, fun _ => rfl⟩
  | cons item rest =>
      rw [ofItems, allShowable, Bool.and_eq_true, isShowable_ofValue_iff item,
        allShowable_ofItems_iff rest, List.forall_mem_cons]

theorem entriesShowable_ofFields_iff (fields : List (Text × Value)) :
    entriesShowable (ofFields fields) = true ↔ ∀ field ∈ fields, field.2.Writable := by
  match fields with
  | [] => exact ⟨fun _ => List.forall_mem_nil _, fun _ => rfl⟩
  | (name, value) :: rest =>
      have hName : (Atom.text name).isShowable = true := rfl
      rw [ofFields, entriesShowable, hName, Bool.true_and, Bool.and_eq_true,
        isShowable_ofValue_iff value, entriesShowable_ofFields_iff rest, List.forall_mem_cons]

end

end Data

namespace Value

variable {value : Value}

theorem shown_of_writable (hWritable : value.Writable) :
    (Data.ofValue value).shown = .ok value.display := by
  rw [Data.shown, if_pos ((Data.isShowable_ofValue_iff value).mpr hWritable), display]

theorem shown_of_not_writable (hWritable : ¬ value.Writable) :
    (Data.ofValue value).shown = .error .tooLong := by
  rw [Data.shown, if_neg (mt (Data.isShowable_ofValue_iff value).mp hWritable)]

end Value

end LogicSignature
