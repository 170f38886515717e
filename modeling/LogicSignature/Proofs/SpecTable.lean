import Mathlib.Data.List.Dedup
import LogicSignature.Proofs.LoadedTable
import LogicSignature.Proofs.RefusalWording

/-
The opcode table of a language specification.

The slots are filled in the order of the operations, so each holds what the last operation with its
opcode says. An operation of size zero counts only if its opcode has a layout of its own.
-/

namespace LogicSignature

/-- An operation whose numbers were all written as integers. -/
structure Operation.IsInteger (operation : Operation) : Prop where
  opcode : ∃ number : Int, operation.opcode = .integer number
  cost : ∃ number : Int, operation.cost = .integer number
  size : ∃ number : Int, operation.size = .integer number

/-- An operation that has a size, or a layout of its own. -/
def Operation.Kept (operation : Operation) : Prop :=
  operation.size ≠ .integer 0 ∨ operation.opcode = .integer 0x20 ∨
    operation.opcode = .integer 0x26

instance (operation : Operation) : Decidable operation.Kept :=
  inferInstanceAs (Decidable (_ ∨ _ ∨ _))

/-- The last operation with an opcode that is kept. -/
def LangSpec.lastKept? (spec : LangSpec) (opcode : UInt8) : Option Operation :=
  spec.operations.reverse.find? fun operation =>
    operation.opcode = .integer opcode.toNat ∧ operation.Kept

namespace LangSpec

theorem lastKept?_eq_none_iff (spec : LangSpec) (opcode : UInt8) :
    spec.lastKept? opcode = none ↔ ∀ operation ∈ spec.operations,
      operation.opcode = .integer opcode.toNat → ¬ operation.Kept := by
  simp only [lastKept?, List.find?_eq_none, List.mem_reverse, decide_eq_true_iff, not_and]

theorem mem_of_lastKept?_eq_some {spec : LangSpec} {opcode : UInt8} {operation : Operation}
    (hLast : spec.lastKept? opcode = some operation) :
    operation ∈ spec.operations ∧ operation.Kept := by
  have hFound := List.find?_some hLast
  exact ⟨List.mem_reverse.mp (List.mem_of_find?_eq_some hLast), (of_decide_eq_true hFound).2⟩

/-- A document that was read had no violations, so what was read from it is checked. -/
theorem checked_of_parse_eq_ok {document : Value} {source : Text} {spec : LangSpec}
    (hParse : parse document source = .ok spec) :
    spec.evalMaxVersion.IsCount ∧ ∀ operation ∈ spec.operations, operation.Checked := by
  by_cases hValid : violations document = []
  · obtain ⟨found, hFound, hFacts⟩ := exists_parse_eq_ok hValid source
    rw [hParse] at hFound
    cases hFound
    exact hFacts
  · rw [parse_of_invalid hValid] at hParse
    cases hParse

/-- A document with operations of cost one, given by their opcodes and sizes. -/
def listing (entries : List (Int × Int)) : Value :=
  .record [("EvalMaxVersion", .integer 2), ("Ops", .list (entries.map fun entry =>
    .record [("Opcode", .integer entry.1), ("Cost", .integer 1), ("Size", .integer entry.2)]))]

/-- The specification that is read from a listing. -/
def listed (entries : List (Int × Int)) : LangSpec :=
  ⟨.integer 2, .integer 2,
    entries.map fun entry => ⟨.integer entry.1, "", .integer 1, .integer entry.2⟩, memorySource⟩

theorem parse_listing {entries : List (Int × Int)} (hValid : violations (listing entries) = []) :
    parse (listing entries) memorySource = .ok (listed entries) := by
  have hOperations : operationsOf (listing entries) = (listed entries).operations := List.map_map
  rw [parse, ofDocument, hValid, hOperations]
  rfl

theorem isInteger_of_mem_listed {entries : List (Int × Int)} {operation : Operation}
    (hMem : operation ∈ (listed entries).operations) : operation.IsInteger := by
  obtain ⟨entry, _, rfl⟩ := List.mem_map.mp hMem
  exact ⟨⟨_, rfl⟩, ⟨_, rfl⟩, ⟨_, rfl⟩⟩

end LangSpec

theorem Operation.exists_byte {operation : Operation} (hChecked : operation.Checked)
    (hInteger : operation.IsInteger) :
    ∃ opcode : UInt8, operation.opcode = .integer opcode.toNat := by
  obtain ⟨number, hNumber⟩ := hInteger.opcode
  have hLeast := hChecked.opcode.nonneg
  have hMost := hChecked.opcode_le
  rw [hNumber, Quantity.less_integer, decide_eq_false_iff_not] at hLeast hMost
  refine ⟨UInt8.ofNat number.toNat, ?_⟩
  rw [hNumber, UInt8.toNat_ofNat']
  congr 1
  omega

theorem Operation.isKept_iff {operation : Operation} (hInteger : operation.IsInteger) :
    operation.isKept = true ↔ operation.Kept := by
  obtain ⟨opcode, hOpcode⟩ := hInteger.opcode
  obtain ⟨size, hSize⟩ := hInteger.size
  rw [isKept, Kept, blockKind?, hOpcode, hSize]
  simp only [Quantity.same_integer, Bool.or_eq_true, Bool.not_eq_true', decide_eq_false_iff_not,
    decide_eq_true_iff, ne_eq, Quantity.integer.injEq]
  refine or_congr_right ?_
  split
  · rename_i hFirst
    simp [hFirst]
  · rename_i hFirst
    split
    · rename_i hSecond
      simp [hSecond]
    · rename_i hSecond
      simp [hFirst, hSecond]

namespace Opcode

/-! ### Descriptors of operations -/

/-- A descriptor says what an operation says. An operation of size zero is a constant block, of the
kind that its opcode stands for; any other one has at least one byte. -/
structure Describes (operation : Operation) (descriptor : Descriptor) : Prop where
  opcode : operation.opcode = .integer descriptor.opcode.toNat
  cost : descriptor.cost = operation.cost
  size : descriptor.size = operation.size
  name : descriptor.name = operation.name
  integerBlock : descriptor.block = some .integers ↔
    operation.size = .integer 0 ∧ descriptor.opcode = integerBlockOpcode
  byteBlock : descriptor.block = some .bytes ↔
    operation.size = .integer 0 ∧ descriptor.opcode = byteBlockOpcode
  fixed : descriptor.block = none ↔ ∃ size : Int, 1 ≤ size ∧ operation.size = .integer size

theorem Describes.unique {operation : Operation} {left right : Descriptor}
    (hLeft : Describes operation left) (hRight : Describes operation right) : left = right := by
  have hOpcode : left.opcode = right.opcode := by
    have hSame := hLeft.opcode.symm.trans hRight.opcode
    rw [Quantity.integer.injEq, Int.natCast_inj] at hSame
    exact UInt8.toNat_inj.mp hSame
  have hCost := hLeft.cost.trans hRight.cost.symm
  have hSize := hLeft.size.trans hRight.size.symm
  have hName := hLeft.name.trans hRight.name.symm
  have hBlock : right.block = left.block := by
    cases hFound : left.block with
    | none => exact hRight.fixed.mpr (hLeft.fixed.mp hFound)
    | some kind =>
        cases kind with
        | integers =>
            rw [hRight.integerBlock, ← hOpcode]
            exact hLeft.integerBlock.mp hFound
        | bytes =>
            rw [hRight.byteBlock, ← hOpcode]
            exact hLeft.byteBlock.mp hFound
  cases left
  cases right
  cases hOpcode
  cases hCost
  cases hSize
  cases hName
  cases hBlock
  rfl

theorem natCast_toNat_eq_iff (opcode other : UInt8) :
    (opcode.toNat : Int) = other.toNat ↔ opcode = other := by
  rw [Int.natCast_inj, UInt8.toNat_inj]

theorem blockKind?_integer_eq_some_iff (opcode : UInt8) (kind : BlockKind) :
    blockKind? (.integer opcode.toNat) = some kind ↔
      (opcode = integerBlockOpcode ∧ kind = .integers) ∨
        (opcode = byteBlockOpcode ∧ kind = .bytes) := by
  have hFirst := natCast_toNat_eq_iff opcode integerBlockOpcode
  have hSecond := natCast_toNat_eq_iff opcode byteBlockOpcode
  rw [← hFirst, ← hSecond, blockKind?]
  simp only [Quantity.same_integer, decide_eq_true_iff]
  change (if (opcode.toNat : Int) = 32 then _ else if (opcode.toNat : Int) = 38 then _ else _) = _ ↔
    ((opcode.toNat : Int) = 32 ∧ _) ∨ ((opcode.toNat : Int) = 38 ∧ _)
  split
  · rename_i hOpcode
    simp [hOpcode, eq_comm]
  · rename_i hOther
    split
    · rename_i hOpcode
      simp [hOpcode, eq_comm]
    · rename_i hNeither
      simp [hOther, hNeither]

theorem describes_of_ofOperation_eq_ok {operation : Operation} (hInteger : operation.IsInteger)
    {descriptor : Descriptor} (hBuilt : Descriptor.ofOperation operation = .ok descriptor) :
    Describes operation descriptor := by
  obtain ⟨size, hSize⟩ := hInteger.size
  obtain ⟨opcode, hOpcode, ⟨hZero, kind, hKind, hMake⟩ | ⟨hSome, hMake⟩⟩ :=
    (Descriptor.ofOperation_eq_ok_iff operation descriptor).mp hBuilt
  · obtain ⟨hByte, hCost, hSame, hName, hBlock⟩ := Descriptor.eq_of_make_eq_ok hMake
    rw [hSize, Quantity.same_integer, decide_eq_true_iff] at hZero
    subst hZero hByte
    rw [blockKind?_integer_eq_some_iff] at hKind
    refine ⟨hOpcode, hCost, hSame.trans hSize.symm, hName, ?_, ?_, ?_⟩
    · rw [hBlock]
      rcases hKind with ⟨hFirst, rfl⟩ | ⟨hSecond, rfl⟩
      · simp [hSize, hFirst]
      · simp [hSecond, integerBlockOpcode, byteBlockOpcode]
    · rw [hBlock]
      rcases hKind with ⟨hFirst, rfl⟩ | ⟨hSecond, rfl⟩
      · simp [hFirst, integerBlockOpcode, byteBlockOpcode]
      · simp [hSize, hSecond]
    · rw [hBlock, hSize]
      simp
  · obtain ⟨hByte, hCost, hSame, hName, hBlock⟩ := Descriptor.eq_of_make_eq_ok hMake
    rw [hSize, Quantity.same_integer, decide_eq_false_iff_not] at hSome
    subst hByte
    have hPos := descriptor.size_pos hBlock
    rw [hSame, hSize, Quantity.less_integer, decide_eq_false_iff_not, Int.not_lt] at hPos
    refine ⟨hOpcode, hCost, hSame, hName, ?_, ?_, ?_⟩
    · simp [hBlock, hSize, hSome]
    · simp [hBlock, hSize, hSome]
    · simp [hBlock, hSize, hPos]

/-! ### The last operation of an opcode -/

theorem Describes.opcode_eq_iff {operation : Operation} {descriptor : Descriptor}
    (hDescribes : Describes operation descriptor) (opcode : UInt8) :
    operation.opcode = .integer opcode.toNat ↔ descriptor.opcode = opcode := by
  rw [hDescribes.opcode, Quantity.integer.injEq, natCast_toNat_eq_iff]

theorem rel_or {firstOperation secondOperation : Option Operation}
    {firstDescriptor secondDescriptor : Option Descriptor}
    (hFirst : Option.Rel Describes firstOperation firstDescriptor)
    (hSecond : Option.Rel Describes secondOperation secondDescriptor) :
    Option.Rel Describes (firstOperation.or secondOperation)
      (firstDescriptor.or secondDescriptor) := by
  cases hFirst with
  | some hDescribes => exact .some hDescribes
  | none => exact hSecond

/-- The last descriptor for an opcode is that of the last kept operation with this opcode. -/
theorem rel_find?_keptDescriptors {operations : List Operation} {descriptors : List Descriptor}
    (hIntegers : ∀ operation ∈ operations, operation.IsInteger)
    (hBuilt : keptDescriptors operations = .ok descriptors) (opcode : UInt8) :
    Option.Rel Describes
      (operations.reverse.find? fun operation =>
        operation.opcode = .integer opcode.toNat ∧ operation.Kept)
      (descriptors.reverse.find? fun descriptor => descriptor.opcode = opcode) := by
  fun_induction keptDescriptors operations generalizing descriptors with
  | case1 =>
      cases hBuilt
      exact .none
  | case2 operation rest hKept fault hFault => cases hBuilt
  | case3 operation rest hKept first hFirst fault hFault => cases hBuilt
  | case4 operation rest hKept first hFirst others hOthers ih =>
      cases hBuilt
      obtain ⟨hInteger, hRest⟩ := List.forall_mem_cons.mp hIntegers
      have hDescribes := describes_of_ofOperation_eq_ok hInteger hFirst
      rw [Operation.isKept_iff hInteger] at hKept
      rw [List.reverse_cons, List.reverse_cons, List.find?_append, List.find?_append]
      -- The first operation counts only if no later one does.
      apply rel_or (ih hRest hOthers)
      rw [List.find?_singleton, List.find?_singleton]
      simp only [decide_eq_true_iff, hDescribes.opcode_eq_iff, hKept, and_true]
      split
      · exact .some hDescribes
      · exact .none
  | case5 operation rest hDropped ih =>
      obtain ⟨hInteger, hRest⟩ := List.forall_mem_cons.mp hIntegers
      rw [Operation.isKept_iff hInteger] at hDropped
      rw [List.reverse_cons, List.find?_append, List.find?_singleton]
      simp only [hDropped, and_false, decide_false, Bool.false_eq_true, if_false, Option.or_none]
      exact ih hRest hBuilt

namespace Table

variable {spec : LangSpec} {table : Table}

theorem rel_lastKept?_get? (hIntegers : ∀ operation ∈ spec.operations, operation.IsInteger)
    (hTable : ofSpec spec = .ok table) (opcode : UInt8) :
    Option.Rel Describes (spec.lastKept? opcode) (table.get? opcode) := by
  obtain ⟨descriptors, hBuilt, rfl⟩ := ofSpec_eq_ok_iff.mp hTable
  rw [get?_ofDescriptors]
  exact rel_find?_keptDescriptors hIntegers hBuilt opcode

theorem isFiled_of_ofSpec_eq_ok (hTable : ofSpec spec = .ok table) : table.IsFiled := by
  obtain ⟨descriptors, _, rfl⟩ := ofSpec_eq_ok_iff.mp hTable
  exact isFiled_ofDescriptors descriptors _ _

theorem get?_eq_none_iff (hIntegers : ∀ operation ∈ spec.operations, operation.IsInteger)
    (hTable : ofSpec spec = .ok table) (opcode : UInt8) :
    table.get? opcode = none ↔ spec.lastKept? opcode = none := by
  have hRel := rel_lastKept?_get? hIntegers hTable opcode
  generalize spec.lastKept? opcode = last, table.get? opcode = slot at hRel ⊢
  cases hRel with
  | some hDescribes => simp
  | none => simp

theorem get?_eq_some_iff (hIntegers : ∀ operation ∈ spec.operations, operation.IsInteger)
    (hTable : ofSpec spec = .ok table) (opcode : UInt8) (descriptor : Descriptor) :
    table.get? opcode = some descriptor ↔ ∃ operation, spec.lastKept? opcode = some operation ∧
      descriptor.opcode = opcode ∧ Describes operation descriptor := by
  have hFiled := isFiled_of_ofSpec_eq_ok hTable opcode
  have hRel := rel_lastKept?_get? hIntegers hTable opcode
  generalize spec.lastKept? opcode = last, table.get? opcode = slot at hRel hFiled ⊢
  cases hRel with
  | none => simp
  | @some operation found hFound =>
      constructor
      · intro hSame
        cases hSame
        exact ⟨operation, rfl, hFiled _ rfl, hFound⟩
      · rintro ⟨_, ⟨⟩, _, hDescribes⟩
        rw [hFound.unique hDescribes]

/-- As many slots are filled as there are opcodes of kept operations. -/
theorem size_of_ofSpec_eq_ok (hChecked : ∀ operation ∈ spec.operations, operation.Checked)
    (hIntegers : ∀ operation ∈ spec.operations, operation.IsInteger)
    (hTable : ofSpec spec = .ok table) :
    table.size = ((spec.operations.filter (fun operation => operation.Kept)).map
      Operation.opcode).dedup.length := by
  have hFiled := isFiled_of_ofSpec_eq_ok hTable
  have hDistinct : (table.toList.map fun descriptor =>
      Quantity.integer descriptor.opcode.toNat).Nodup := by
    have hOrder := List.pairwise_map.mp hFiled.pairwise_toList
    rw [List.Nodup, List.pairwise_map]
    refine hOrder.imp ?_
    intro left right hLess hSame
    rw [Quantity.integer.injEq, natCast_toNat_eq_iff] at hSame
    rw [hSame] at hLess
    exact UInt8.lt_irrefl _ hLess
  have hSame : ∀ number, number ∈ (table.toList.map fun descriptor =>
      Quantity.integer descriptor.opcode.toNat) ↔
      number ∈ ((spec.operations.filter (fun operation => operation.Kept)).map
        Operation.opcode).dedup := by
    intro number
    rw [List.mem_dedup, List.mem_map, List.mem_map]
    constructor
    · rintro ⟨descriptor, hMem, rfl⟩
      obtain ⟨opcode, hGet⟩ := (mem_toList_iff table descriptor).mp hMem
      obtain ⟨operation, hLast, _, hDescribes⟩ :=
        (get?_eq_some_iff hIntegers hTable opcode descriptor).mp hGet
      obtain ⟨hListed, hKept⟩ := LangSpec.mem_of_lastKept?_eq_some hLast
      exact ⟨operation, List.mem_filter.mpr ⟨hListed, decide_eq_true hKept⟩, hDescribes.opcode⟩
    · rintro ⟨operation, hMem, rfl⟩
      obtain ⟨hListed, hKept⟩ := List.mem_filter.mp hMem
      obtain ⟨opcode, hOpcode⟩ :=
        Operation.exists_byte (hChecked operation hListed) (hIntegers operation hListed)
      cases hGet : table.get? opcode with
      | none =>
          rw [get?_eq_none_iff hIntegers hTable, LangSpec.lastKept?_eq_none_iff] at hGet
          exact absurd (of_decide_eq_true hKept) (hGet operation hListed hOpcode)
      | some descriptor =>
          refine ⟨descriptor, (mem_toList_iff table descriptor).mpr ⟨opcode, hGet⟩, ?_⟩
          rw [hFiled opcode descriptor hGet, hOpcode]
  have hLength := ((List.perm_ext_iff_of_nodup hDistinct (List.nodup_dedup _)).mpr hSame).length_eq
  rwa [List.length_map] at hLength

/-- The specification of a document gives a table if its numbers are integers. A slot holds what the
last kept operation with its opcode says, and nothing if there is none. The descriptors stand in the
order of their opcodes, one for each slot that is filled, and there are as many as there are opcodes
of kept operations. -/
theorem slots_of_parsed_spec {document : Value} {source : Text}
    (hParse : LangSpec.parse document source = .ok spec)
    (hIntegers : ∀ operation ∈ spec.operations, operation.IsInteger) :
    ∃ table, ofSpec spec = .ok table ∧
      (∀ opcode, table.get? opcode = none ↔ spec.lastKept? opcode = none) ∧
      (∀ opcode descriptor, table.get? opcode = some descriptor ↔
        ∃ operation, spec.lastKept? opcode = some operation ∧ descriptor.opcode = opcode ∧
          Describes operation descriptor) ∧
      (table.toList.map Descriptor.opcode).Pairwise (· < ·) ∧
      (∀ descriptor, descriptor ∈ table.toList ↔
        ∃ opcode, table.get? opcode = some descriptor) ∧
      table.size = ((spec.operations.filter (fun operation => operation.Kept)).map
        Operation.opcode).dedup.length := by
  obtain ⟨_, hChecked⟩ := LangSpec.checked_of_parse_eq_ok hParse
  obtain ⟨table, hTable⟩ := (exists_ofSpec_eq_ok_iff hChecked).mpr
    (fun operation hMem _ => (hIntegers operation hMem).opcode)
  exact ⟨table, hTable, get?_eq_none_iff hIntegers hTable, get?_eq_some_iff hIntegers hTable,
    (isFiled_of_ofSpec_eq_ok hTable).pairwise_toList, mem_toList_iff table,
    size_of_ofSpec_eq_ok hChecked hIntegers hTable⟩

/-- Five operations with three opcodes: the later size of one, a block, and one whose later entry is
left out. -/
theorem slots_of_repeated_opcodes :
    let spec := LangSpec.listed [(0x08, 1), (0x20, 0), (0x50, 1), (0x08, 2), (0x50, 0)]
    LangSpec.parse (LangSpec.listing [(0x08, 1), (0x20, 0), (0x50, 1), (0x08, 2), (0x50, 0)])
        LangSpec.memorySource = .ok spec ∧
      (∀ operation ∈ spec.operations, operation.IsInteger) ∧
      ∃ table, ofSpec spec = .ok table ∧ table.get? 0x51 = none ∧ table.size = 3 ∧
        ∃ descriptor, table.get? 0x08 = some descriptor ∧ descriptor.size = .integer 2 := by
  intro spec
  have hParse : LangSpec.parse (LangSpec.listing [(0x08, 1), (0x20, 0), (0x50, 1), (0x08, 2),
      (0x50, 0)]) LangSpec.memorySource = .ok spec :=
    LangSpec.parse_listing ((LangSpec.violations_eq_nil_iff _).mpr rfl)
  have hIntegers : ∀ operation ∈ spec.operations, operation.IsInteger :=
    fun operation hMem => LangSpec.isInteger_of_mem_listed hMem
  obtain ⟨table, hTable, hNone, hSome, _, _, hSize⟩ := slots_of_parsed_spec hParse hIntegers
  refine ⟨hParse, hIntegers, table, hTable, (hNone 0x51).mpr rfl, hSize.trans rfl, ?_⟩
  have hFilled : table.get? 0x08 ≠ none := (hNone 0x08).not.mpr (by decide)
  obtain ⟨descriptor, hGet⟩ := Option.ne_none_iff_exists'.mp hFilled
  obtain ⟨operation, hLast, _, hDescribes⟩ := (hSome 0x08 descriptor).mp hGet
  have hSecond : operation = ⟨.integer 8, "", .integer 1, .integer 2⟩ :=
    (Option.some.inj hLast).symm
  refine ⟨descriptor, hGet, ?_⟩
  rw [hDescribes.size, hSecond]

end Table

end Opcode

end LogicSignature

namespace LogicSignature.Program

open Opcode (Descriptor Table Describes)

/-! ### Operations without a layout -/

section

variable {spec : LangSpec} {table : Table} {opcode : UInt8}

theorem hasIntegerCosts_of_ofSpec_eq_ok
    (hIntegers : ∀ operation ∈ spec.operations, operation.IsInteger)
    (hTable : Table.ofSpec spec = .ok table) : table.HasIntegerCosts := by
  intro opcode descriptor hGet
  obtain ⟨operation, hLast, _, hDescribes⟩ :=
    (Table.get?_eq_some_iff hIntegers hTable opcode descriptor).mp hGet
  obtain ⟨hListed, _⟩ := LangSpec.mem_of_lastKept?_eq_some hLast
  rw [hDescribes.cost]
  exact (hIntegers operation hListed).cost

/-- With integer costs a scan follows every path, so an opcode without a descriptor that it comes to
is reported where it stands. -/
theorem refusedFor_invalidInstruction (hCosts : table.HasIntegerCosts)
    (hNone : table.get? opcode = none) {limits : Limits} {program : List UInt8}
    {arguments : List (List UInt8)} {version start position : Nat} {steps : List Placed}
    (hAdmitted : Admitted table limits program arguments version start)
    (hPath : Path table program start steps position)
    (hOpcode : program[position]? = some opcode) :
    RefusedFor table limits program arguments (.invalidInstruction opcode position) := by
  obtain ⟨costs, hSteps⟩ := hPath.exists_costs hCosts
  have hReached := (reached_iff hCosts).mpr ⟨steps, costs, hPath, hSteps, rfl⟩
  have hFailed : FirstFailed table limits program arguments
      (.invalidInstruction opcode position) :=
    .invalidInstruction version start position _ opcode hAdmitted hReached hOpcode hNone
  have hAnswer := (validate_eq_error_iff table limits program arguments _).mpr
    (.inl ⟨_, hFailed, rfl⟩)
  refine ⟨hAnswer, ?_⟩
  intro hLength
  have hInside : position < program.length := (List.getElem?_eq_some_iff.mp hOpcode).1
  rw [hAnswer, Failure.worded, isWritable_invalidInstruction opcode (by omega), if_pos rfl]

/-- Only a layout of its own lets an operation of size zero be kept. -/
theorem kept_iff_of_no_layout {operation : Operation}
    (hOpcode : operation.opcode = .integer opcode.toNat) (hInteger : opcode ≠ integerBlockOpcode)
    (hBytes : opcode ≠ byteBlockOpcode) : operation.Kept ↔ operation.size ≠ .integer 0 := by
  have hFirst := (Opcode.natCast_toNat_eq_iff opcode integerBlockOpcode).not.mpr hInteger
  have hSecond := (Opcode.natCast_toNat_eq_iff opcode byteBlockOpcode).not.mpr hBytes
  refine or_iff_left ?_
  rw [hOpcode, Quantity.integer.injEq, Quantity.integer.injEq]
  exact not_or.mpr ⟨hFirst, hSecond⟩

end

/-- Take an operation of size zero whose opcode has no layout of its own. If every operation of the
specification with this opcode has size zero, no program can use the opcode: it has no descriptor,
and a program whose scan comes to it is refused, as an invalid instruction at that position.
Otherwise the last operation with this opcode that has a size stands for it, and no program is
refused because of the opcode. -/
theorem sizeless_opcode_invalid_iff {document : Value} {source : Text} {spec : LangSpec}
    (hParse : LangSpec.parse document source = .ok spec)
    (hIntegers : ∀ operation ∈ spec.operations, operation.IsInteger) :
    ∃ table, Table.ofSpec spec = .ok table ∧
      ∀ operation ∈ spec.operations, operation.size = .integer 0 →
      ∀ opcode : UInt8, operation.opcode = .integer opcode.toNat →
        opcode ≠ integerBlockOpcode → opcode ≠ byteBlockOpcode →
      (table.get? opcode = none ↔ ∀ other ∈ spec.operations,
        other.opcode = operation.opcode → other.size = operation.size) ∧
      (table.get? opcode = none → ∀ limits program arguments version start steps position,
        Admitted table limits program arguments version start →
        Path table program start steps position → program[position]? = some opcode →
        RefusedFor table limits program arguments (.invalidInstruction opcode position)) ∧
      ∀ descriptor, table.get? opcode = some descriptor →
        (∃ other, spec.lastKept? opcode = some other ∧ other.size ≠ operation.size ∧
          Describes other descriptor) ∧
        ∀ limits program arguments position, validate table limits program arguments ≠
          .error (.rejected (.invalidInstruction opcode position)) := by
  obtain ⟨_, hChecked⟩ := LangSpec.checked_of_parse_eq_ok hParse
  obtain ⟨table, hTable⟩ := (Table.exists_ofSpec_eq_ok_iff hChecked).mpr
    (fun operation hMem _ => (hIntegers operation hMem).opcode)
  refine ⟨table, hTable, ?_⟩
  intro operation _ hSize opcode hOpcode hInteger hBytes
  refine ⟨?_, ?_, ?_⟩
  · rw [Table.get?_eq_none_iff hIntegers hTable, LangSpec.lastKept?_eq_none_iff, hOpcode, hSize]
    refine forall₃_congr fun other _ hOther => ?_
    rw [kept_iff_of_no_layout hOther hInteger hBytes, not_not]
  · intro hNone limits program arguments version start steps position hAdmitted hPath hByte
    exact refusedFor_invalidInstruction (hasIntegerCosts_of_ofSpec_eq_ok hIntegers hTable) hNone
      hAdmitted hPath hByte
  · intro descriptor hGet
    constructor
    · obtain ⟨other, hLast, hSlot, hDescribes⟩ :=
        (Table.get?_eq_some_iff hIntegers hTable opcode descriptor).mp hGet
      obtain ⟨_, hKept⟩ := LangSpec.mem_of_lastKept?_eq_some hLast
      have hOther := (hDescribes.opcode_eq_iff opcode).mpr hSlot
      rw [kept_iff_of_no_layout hOther hInteger hBytes, ← hSize] at hKept
      exact ⟨other, hLast, hKept, hDescribes⟩
    · intro limits program arguments position hError
      cases firstFailed_of_validate_eq_error hError with
      | invalidInstruction version start _ tally _ hAdmitted hReached hByte hNone =>
          rw [hGet] at hNone
          cases hNone

theorem sizeless_opcode_behind_version :
    let spec := LangSpec.listed [(0x08, 1), (0x50, 0)]
    LangSpec.parse (LangSpec.listing [(0x08, 1), (0x50, 0)]) LangSpec.memorySource = .ok spec ∧
      (∀ operation ∈ spec.operations, operation.IsInteger) ∧
      ∃ table, Table.ofSpec spec = .ok table ∧
        validate table {} [0x01, 0x50] [] = .error (.rejected (.invalidInstruction 0x50 1)) := by
  intro spec
  have hParse : LangSpec.parse (LangSpec.listing [(0x08, 1), (0x50, 0)]) LangSpec.memorySource =
      .ok spec := LangSpec.parse_listing ((LangSpec.violations_eq_nil_iff _).mpr rfl)
  have hIntegers : ∀ operation ∈ spec.operations, operation.IsInteger :=
    fun operation hMem => LangSpec.isInteger_of_mem_listed hMem
  obtain ⟨table, hTable, hSizeless⟩ := sizeless_opcode_invalid_iff hParse hIntegers
  have hVersion := Table.evalMaxVersion_of_ofSpec_eq_ok hTable
  obtain ⟨hEmpty, hRefused, _⟩ := hSizeless ⟨.integer 0x50, "", .integer 1, .integer 0⟩
    (by decide) rfl 0x50 rfl (by decide) (by decide)
  have hNone : table.get? 0x50 = none := hEmpty.mpr (by decide)
  have hAdmitted : Admitted table {} [0x01, 0x50] [] 1 1 :=
    ⟨rfl, by rw [hVersion]; rfl, by decide⟩
  refine ⟨hParse, hIntegers, table, hTable, ?_⟩
  exact (hRefused hNone {} [0x01, 0x50] [] 1 1 [] 1 hAdmitted (.nil 1) rfl).inWords
    (Nat.lt_of_lt_of_le (by decide) two_pow_le_writableBound)

/-- An operation of size zero is left out, but an earlier one with its opcode still stands for the
opcode, so that a program that uses it is accepted. -/
theorem sizeless_operation_behind_sized_one :
    let spec := LangSpec.listed [(0x50, 1), (0x50, 0)]
    LangSpec.parse (LangSpec.listing [(0x50, 1), (0x50, 0)]) LangSpec.memorySource = .ok spec ∧
      ⟨.integer 0x50, "", .integer 1, .integer 0⟩ ∈ spec.operations ∧
      ∃ table, Table.ofSpec spec = .ok table ∧
        validate table {} [0x01, 0x50] [] = .ok ⟨1, 2, .integer 1, 1⟩ :=
  ⟨LangSpec.parse_listing ((LangSpec.violations_eq_nil_iff _).mpr rfl), by decide, _, rfl, rfl⟩

end LogicSignature.Program
