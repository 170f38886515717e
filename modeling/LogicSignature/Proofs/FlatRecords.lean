import LogicSignature.Output.Format
import LogicSignature.Program.Validation
import LogicSignature.Proofs.NumberText
import LogicSignature.Proofs.RefusalWording
import LogicSignature.Proofs.VarintDecoding
import LogicSignature.Proofs.WritableValues
import LogicSignature.Session.Checking

/-
Records of plain values, and reports.

A record whose values have no parts and whose integers are short enough can be written in every
output format. The report about an accepted program is such a record: under the default limits its
numbers are small, whatever the table is.
-/

namespace LogicSignature

/-- A value without parts that can be written. -/
inductive Value.Flat : Value → Prop
  | null : Flat .null
  | boolean (flag : Bool) : Flat (.boolean flag)
  | integer {number : Int} (hWritable : Numeral.isWritable number = true) : Flat (.integer number)
  | real (number : Binary64) : Flat (.real number)
  | text (content : Text) : Flat (.text content)

def FlatFields (fields : List (Text × Value)) : Prop := ∀ field ∈ fields, field.2.Flat

/-! ### One format after the other -/

section

variable {fields : List (Text × Value)} (hFlat : FlatFields fields)

theorem writable_of_flat {value : Value} (hValue : value.Flat) : value.Writable := by
  cases hValue with
  | null => exact .null
  | boolean flag => exact .boolean flag
  | integer hWritable => exact .integer hWritable
  | real number => exact .real number
  | text content => exact .text content

theorem exists_document_of_flat {value : Value} (hValue : value.Flat) :
    ∃ written, (Data.ofValue value).document = .ok written := by
  cases hValue with
  | @integer number hWritable =>
      refine ⟨.integer number, ?_⟩
      rw [Data.ofValue, Data.document, Data.ofAtom, if_pos hWritable]
  | _ => exact ⟨_, by rw [Data.ofValue, Data.document, Data.ofAtom]⟩

theorem ne_list_of_flat {value : Value} (hValue : value.Flat) (items : List Value) :
    value ≠ .list items := by
  rintro rfl
  cases hValue

include hFlat

theorem exists_documentFields :
    ∃ written, Data.documentFields (Data.ofFields fields) = .ok written := by
  induction fields with
  | nil => exact ⟨[], by rw [Data.ofFields, Data.documentFields]⟩
  | cons field rest ih =>
      obtain ⟨hField, hRest⟩ := List.forall_mem_cons.mp hFlat
      obtain ⟨value, hValue⟩ := exists_document_of_flat hField
      obtain ⟨others, hOthers⟩ := ih hRest
      refine ⟨(field.1, value) :: others, ?_⟩
      rw [Data.ofFields, Data.documentFields, Data.fieldName]
      simp only [hValue, hOthers]

theorem exists_line : ∃ text, Output.line (.value (.record fields)) = .ok text := by
  have hWritable : (Value.record fields).Writable :=
    .record fun field hField => writable_of_flat (hFlat field hField)
  refine ⟨(Value.record fields).display, ?_⟩
  rw [Output.line, Content.shown, Content.data, Value.shown_of_writable hWritable]

theorem exists_entryLines :
    ∃ lines, Output.entryLines (fields.map fun field => (.text field.1, .value field.2)) =
      .ok lines := by
  induction fields with
  | nil => exact ⟨[], rfl⟩
  | cons field rest ih =>
      obtain ⟨hField, hRest⟩ := List.forall_mem_cons.mp hFlat
      obtain ⟨lines, hLines⟩ := ih hRest
      have hKey : (Data.atom (.text field.1)).shown = .ok field.1 := by
        rw [Data.shown, Data.isShowable]
        rfl
      have hValue : (Content.value field.2).shown = .ok field.2.display := by
        rw [Content.shown, Content.data, Value.shown_of_writable (writable_of_flat hField)]
      refine ⟨(field.1 ++ ": " ++ field.2.display) :: lines, ?_⟩
      rw [List.map_cons, Output.entryLines, Output.entryLine]
      simp only [hKey, hValue, hLines]

theorem exists_tableText : ∃ text, Output.tableText (.value (.record fields)) = .ok text := by
  obtain ⟨lines, hLines⟩ := exists_entryLines hFlat
  have hNone : (fields.map fun field => ((.text field.1 : Atom), Content.value field.2)).filterMap
      (fun entry => entry.2.items?) = [] := by
    rw [List.filterMap_map, List.filterMap_eq_nil_iff]
    exact fun field hMember =>
      Content.items?_value_eq_none (ne_list_of_flat (hFlat field hMember))
  have hEntries : (Content.value (.record fields)).entries? =
      some (fields.map fun field => (.text field.1, .value field.2)) := rfl
  refine ⟨Text.join "\n" lines, ?_⟩
  rw [Output.tableText, hEntries]
  simp only [Output.rowsWithin, hNone, hLines]

end

/-! ### Outlines -/

namespace Yaml

theorem length_unsigned_le (text : Text) : (Plain.unsigned text).length ≤ text.length := by
  cases text with
  | nil => exact Nat.le_refl _
  | cons point rest =>
      rw [Plain.unsigned]
      split
      · exact Nat.le_succ _
      · exact Nat.le_refl _

theorem length_unsigned_signedDecimal {number : Int} {limit : Nat} (hLimit : 0 < limit)
    (hShort : number.natAbs < Nat.pow 10 limit) :
    (Plain.unsigned (Text.signedDecimal number)).length ≤ limit := by
  cases number with
  | ofNat natural =>
      exact Nat.le_trans (length_unsigned_le _) (Text.length_decimal_le hLimit hShort)
  | negSucc natural => exact Text.length_decimal_le hLimit hShort

namespace Outline

variable {Entry : Type} (keyOf : Entry → Atom)

theorem mem_sortByKey {entries : List Entry} {entry : Entry}
    (hMember : entry ∈ sortByKey keyOf entries) : entry ∈ entries := by
  -- Each entry that is inserted leaves only entries that were there, and itself.
  have hFold : ∀ (rest : List Entry) (sorted : Array Entry),
      entry ∈ (rest.foldl (fun sorted next =>
        let place := insertionPoint keyOf (keyOf next) sorted (sorted.size + 1) 0 sorted.size
        sorted.extract 0 place ++ #[next] ++ sorted.extract place sorted.size) sorted).toList →
      entry ∈ sorted.toList ∨ entry ∈ rest := by
    intro rest
    induction rest with
    | nil => exact fun sorted hSorted => .inl hSorted
    | cons next rest ih =>
        intro sorted hSorted
        rcases ih _ hSorted with hInserted | hRest
        · simp only [Array.toList_append, Array.toList_extract, List.mem_append, List.mem_singleton]
            at hInserted
          rcases hInserted with (hFront | rfl) | hBehind
          · exact .inl (List.mem_of_mem_drop (List.mem_of_mem_take hFront))
          · exact .inr List.mem_cons_self
          · exact .inl (List.mem_of_mem_drop (List.mem_of_mem_take hBehind))
        · exact .inr (List.mem_cons_of_mem _ hRest)
  have hRun : ∀ (descending : Bool) (count : Nat),
      entry ∈ (if descending then (entries.take count).reverse else entries.take count) →
      entry ∈ entries := by
    intro descending count hTaken
    cases descending with
    | true => exact List.mem_of_mem_take (List.mem_reverse.mp hTaken)
    | false => exact List.mem_of_mem_take hTaken
  unfold sortByKey at hMember
  rcases hFold _ _ hMember with hStart | hRest
  · exact hRun _ _ hStart
  · exact List.mem_of_mem_drop hRest

theorem mem_arrange {entries : List Entry} {entry : Entry}
    (hMember : entry ∈ arrange keyOf entries) : entry ∈ entries := by
  cases entries with
  | nil => exact hMember
  | cons first rest =>
      rw [arrange] at hMember
      split at hMember
      · exact mem_sortByKey keyOf hMember
      · exact hMember

theorem entriesWritable_of_forall {entries : List (Outline × Outline)}
    (hAll : ∀ entry ∈ entries, entry.1.isWritable = true ∧ entry.2.isWritable = true) :
    entriesWritable entries = true := by
  induction entries with
  | nil => rw [entriesWritable]
  | cons entry rest ih =>
      obtain ⟨hEntry, hRest⟩ := List.forall_mem_cons.mp hAll
      rw [entriesWritable, hEntry.1, hEntry.2, ih hRest]
      rfl

theorem isWritable_of_flat {value : Value} (hFlat : value.Flat) :
    (ofValue value).isWritable = true := by
  cases hFlat with
  | integer hWritable =>
      have hShort := of_decide_eq_true hWritable
      unfold Numeral.writableBound at hShort
      have hLength := length_unsigned_signedDecimal (by decide) hShort
      rw [ofValue, plainAtom, isWritable, ofAtom]
      simp only [decide_eq_true hLength, Bool.or_true]
  | _ =>
      rw [ofValue, plainAtom, isWritable, ofAtom]
      rfl

theorem mem_ofFields {fields : List (Text × Value)} {made : Text × Outline}
    (hMember : made ∈ ofFields fields) : ∃ field ∈ fields, made = (field.1, ofValue field.2) := by
  induction fields with
  | nil =>
      rw [ofFields] at hMember
      cases hMember
  | cons field rest ih =>
      rw [ofFields] at hMember
      rcases List.mem_cons.mp hMember with rfl | hRest
      · exact ⟨field, List.mem_cons_self, rfl⟩
      · obtain ⟨other, hOther, hMade⟩ := ih hRest
        exact ⟨other, List.mem_cons_of_mem _ hOther, hMade⟩

theorem isWritable_record {fields : List (Text × Value)} (hFlat : FlatFields fields) :
    (ofValue (.record fields)).isWritable = true := by
  rw [ofValue, isWritable]
  apply entriesWritable_of_forall
  intro entry hEntry
  obtain ⟨made, hMade, rfl⟩ := List.mem_map.mp hEntry
  obtain ⟨field, hField, rfl⟩ := mem_ofFields (mem_arrange _ hMade)
  refine ⟨?_, isWritable_of_flat (hFlat field hField)⟩
  rw [plainAtom, isWritable, ofAtom]
  rfl

end Outline

end Yaml

/-- A record of plain values has a text in every format. -/
theorem exists_render {fields : List (Text × Value)} (hFlat : FlatFields fields)
    (format : Output.Format) :
    ∃ text, Output.render format (.value (.record fields)) = .ok text := by
  cases format with
  | json =>
      obtain ⟨written, hWritten⟩ := exists_documentFields hFlat
      refine ⟨Json.indented (.record written), ?_⟩
      rw [Output.render, Content.data, Data.ofValue, Data.document]
      simp only [hWritten]
  | yaml =>
      have hWritable := Yaml.Outline.isWritable_record hFlat
      refine ⟨Yaml.write (Yaml.Outline.ofValue (.record fields)) [], ?_⟩
      rw [Output.render, Yaml.renderContent, Yaml.Outline.ofContent]
      simp only [hWritable, if_true]
  | table => exact exists_tableText hFlat
  | text => exact exists_line hFlat

/-! ### Reports -/

namespace Program

open Opcode (Table)

/-- An integer cost is not negative. -/
def Nonnegative (cost : Quantity) : Prop := ∀ number, cost = .integer number → 0 ≤ number

theorem nonnegative_add? {left right sum : Quantity} (hLeft : Nonnegative left)
    (hRight : Nonnegative right) (hSum : Quantity.add? left right = some sum) :
    Nonnegative sum := by
  intro number hNumber
  subst hNumber
  cases left with
  | real amount =>
      cases right with
      | real other => cases hSum
      | integer other =>
          simp only [Quantity.add?] at hSum
          split at hSum <;> cases hSum
  | integer amount =>
      cases right with
      | real other =>
          simp only [Quantity.add?] at hSum
          split at hSum <;> cases hSum
      | integer other =>
          cases hSum
          exact Int.add_nonneg (hLeft amount rfl) (hRight other rfl)

theorem nonnegative_cost (descriptor : Opcode.Descriptor) : Nonnegative descriptor.cost := by
  intro number hNumber
  have hCost := descriptor.cost_nonneg
  rw [hNumber, Quantity.less_integer] at hCost
  exact Int.not_lt.mp (of_decide_eq_false hCost)

/-- A scan counts no more instructions than there are bytes, and its cost does not become
negative. -/
theorem scan_bounds {table : Table} {bytes : List UInt8} {position operands : Nat}
    {tally final : Tally} (hTally : Nonnegative tally.cost)
    (hScan : scan table position operands tally bytes = .ok final) :
    final.instructions ≤ tally.instructions + bytes.length ∧ Nonnegative final.cost := by
  induction bytes generalizing position operands tally with
  | nil =>
      cases hScan
      exact ⟨Nat.le_refl _, hTally⟩
  | cons byte rest ih =>
      cases operands with
      | succ left =>
          -- A byte of an operand counts for nothing.
          obtain ⟨hCount, hCost⟩ := ih hTally hScan
          exact ⟨Nat.le_succ_of_le hCount, hCost⟩
      | zero =>
          rw [scan] at hScan
          cases hDescriptor : table.get? byte with
          | none =>
              rw [hDescriptor] at hScan
              cases hScan
          | some descriptor =>
              rw [hDescriptor] at hScan
              cases hSum : Quantity.add? tally.cost descriptor.cost with
              | none =>
                  simp only [hSum] at hScan
                  cases hScan
              | some cost =>
                  have hNext : Nonnegative cost :=
                    nonnegative_add? hTally (nonnegative_cost descriptor) hSum
                  simp only [hSum] at hScan
                  split at hScan
                  · cases hScan
                  · cases hScan
                    exact ⟨by simp only [List.length_cons]; omega, hNext⟩
                  · obtain ⟨hCount, hCost⟩ := ih hNext hScan
                    refine ⟨?_, hCost⟩
                    simp only [List.length_cons] at hCount ⊢
                    omega

theorem length_le_totalLength (program : List UInt8) (arguments : List (List UInt8)) :
    program.length ≤ totalLength program arguments := by
  unfold totalLength
  induction arguments with
  | nil => exact Nat.le_refl _
  | cons argument rest ih => exact Nat.le_trans ih (Nat.le_add_left _ _)

theorem isWritable_of_lt {number : Int} (hSmall : number.natAbs < 2 ^ 64) :
    Numeral.isWritable number = true :=
  isWritable_of_below (Nat.lt_of_lt_of_le hSmall two_pow_le_writableBound)

/-- An accepted program was stepped over from its version on, byte by byte at most. -/
theorem Completed.bounds {table : Table} {program : List UInt8} {start : Nat} {final : Tally}
    (hCompleted : Completed table program start final) :
    final.instructions ≤ program.length ∧ Nonnegative final.cost := by
  have hStart : Nonnegative Tally.start.cost := by
    intro number hNumber
    cases hNumber
    exact Int.le_refl 0
  have hScan := (scanFrom_start_eq_iff table program start (.ok final)).mpr hCompleted
  obtain ⟨hCount, hCost⟩ := scan_bounds hStart hScan
  refine ⟨Nat.le_trans hCount ?_, hCost⟩
  rw [List.length_drop]
  exact Nat.le_trans (Nat.le_of_eq (Nat.zero_add _)) (Nat.sub_le _ _)

theorem flat_ofQuantity {cost : Quantity} (hNonnegative : Nonnegative cost)
    (hCheap : Quantity.less (.integer defaultMaxCost) cost = false) :
    (Value.ofQuantity cost).Flat := by
  cases cost with
  | real amount => exact .real amount
  | integer amount =>
      have hLow : 0 ≤ amount := hNonnegative amount rfl
      rw [Quantity.less_integer] at hCheap
      have hHigh : amount ≤ 20000 := Int.not_lt.mp (of_decide_eq_false hCheap)
      exact .integer (isWritable_of_lt (by omega))

/-- The numbers of a report under the default limits are short. -/
theorem flat_reportFields {table : Table} {program : List UInt8} {arguments : List (List UInt8)}
    {report : Report} (hValid : validate table {} program arguments = .ok report) :
    FlatFields (Session.reportFields report) := by
  obtain ⟨version, start, final, hAdmitted, hCompleted, hCheap⟩ :=
    (validate_eq_ok_iff table {} program arguments report).mp hValid
  obtain ⟨_, _, _, hSpells, _⟩ :=
    (Varint.decode_eq_decoded_iff program version start).mp hAdmitted.decoded
  have hVersion : version < 2 ^ 64 := hSpells.number_lt
  have hLength : (totalLength program arguments : Int) ≤ 1000 := hAdmitted.fits
  have hWhole := length_le_totalLength program arguments
  obtain ⟨hCount, hCost⟩ := hCompleted.bounds
  unfold FlatFields Session.reportFields
  simp only [List.forall_mem_cons]
  refine ⟨.integer (isWritable_of_lt ?_), .integer (isWritable_of_lt ?_),
    flat_ofQuantity hCost hCheap, .integer (isWritable_of_lt ?_), fun _ hNone => nomatch hNone⟩
  · exact hVersion
  · show totalLength program arguments < 2 ^ 64
    omega
  · show final.instructions < 2 ^ 64
    omega

end Program

end LogicSignature
