import LogicSignature.Proofs.IntegerTables
import LogicSignature.Proofs.IntegralQuantity
import LogicSignature.Proofs.SpecDocument

/-
Tables that were loaded from documents without violations.

The checks of a document accept a count however it was written. A table cannot be built with an
opcode written as a real, and a scan cannot go on behind a size written as a real or add a cost
written as a real to a large integer. With integers throughout, only words can be wanting.
-/

namespace LogicSignature.Opcode

/-! ### Descriptors of checked operations -/

theorem Descriptor.exists_make_eq_ok {opcode : Int} {cost : Quantity} (size : Quantity)
    (name : Text) (block : Option BlockKind) (hNonneg : 0 ≤ opcode) (hByte : opcode ≤ 255)
    (hCost : cost.less (.integer 0) = false)
    (hSize : block = none → size.less (.integer 1) = false) :
    ∃ descriptor, make opcode cost size name block = .ok descriptor := by
  have hRange : ¬ (opcode < 0 ∨ 255 < opcode) := by omega
  have hFixed : ¬ (block = none ∧ size.less (.integer 1) = true) := by
    rintro ⟨hBlock, hLess⟩
    rw [hSize hBlock] at hLess
    cases hLess
  exact ⟨_, by rw [make, if_neg hRange, dif_neg (by rw [hCost]; decide), dif_neg hFixed]⟩

theorem less_one_of_not_same_zero {size : Quantity} (hSize : size.IsCount)
    (hZero : size.same (.integer 0) = false) : size.less (.integer 1) = false := by
  obtain ⟨value, hValue⟩ := Quantity.exists_amounts hSize.integral
  have hNonneg := hSize.nonneg
  rw [hValue.less_integer, decide_eq_false_iff_not] at hNonneg
  rw [hValue.same_integer, decide_eq_false_iff_not] at hZero
  rw [hValue.less_integer, decide_eq_false_iff_not]
  omega

/-- What builds the descriptor of an operation: size zero asks for a constant block. -/
theorem Descriptor.ofOperation_eq_ok_iff (operation : Operation) (descriptor : Descriptor) :
    ofOperation operation = .ok descriptor ↔
      ∃ opcode : Int, operation.opcode = .integer opcode ∧
        ((operation.size.same (.integer 0) = true ∧
            ∃ kind, blockKind? (.integer opcode) = some kind ∧
              make opcode operation.cost (.integer 0) operation.name (some kind) = .ok descriptor) ∨
          (operation.size.same (.integer 0) = false ∧
            make opcode operation.cost operation.size operation.name none = .ok descriptor)) := by
  rw [ofOperation]
  cases operation.opcode with
  | real number => simp
  | integer opcode =>
      cases operation.size.same (.integer 0) with
      | false =>
          cases hMake : make opcode operation.cost operation.size operation.name none <;>
            simp [hMake]
      | true =>
          cases hKind : blockKind? (.integer opcode) with
          | none => simp [constantBlock, hKind]
          | some kind =>
              cases hMake : make opcode operation.cost (.integer 0) operation.name (some kind) <;>
                simp [constantBlock, hKind, hMake]

theorem Descriptor.exists_ofOperation_eq_ok {operation : Operation} (hChecked : operation.Checked)
    (hKept : operation.isKept = true) {opcode : Int}
    (hOpcode : operation.opcode = .integer opcode) :
    ∃ descriptor, ofOperation operation = .ok descriptor := by
  have hNonneg : 0 ≤ opcode := by
    have hLess := hChecked.opcode.nonneg
    rw [hOpcode, Quantity.less_integer, decide_eq_false_iff_not] at hLess
    omega
  have hByte : opcode ≤ 255 := by
    have hLess := hChecked.opcode_le
    rw [hOpcode, Quantity.less_integer, decide_eq_false_iff_not] at hLess
    omega
  cases hZero : operation.size.same (.integer 0) with
  | true =>
      rw [Operation.isKept, hZero, hOpcode] at hKept
      obtain ⟨kind, hKind⟩ := Option.isSome_iff_exists.mp hKept
      obtain ⟨descriptor, hMake⟩ := exists_make_eq_ok (.integer 0) operation.name (some kind)
        hNonneg hByte hChecked.cost.nonneg nofun
      exact ⟨descriptor, (ofOperation_eq_ok_iff operation descriptor).mpr
        ⟨opcode, hOpcode, .inl ⟨hZero, kind, hKind, hMake⟩⟩⟩
  | false =>
      obtain ⟨descriptor, hMake⟩ := exists_make_eq_ok operation.size operation.name none hNonneg
        hByte hChecked.cost.nonneg (fun _ => less_one_of_not_same_zero hChecked.size hZero)
      exact ⟨descriptor, (ofOperation_eq_ok_iff operation descriptor).mpr
        ⟨opcode, hOpcode, .inr ⟨hZero, hMake⟩⟩⟩

/-- The descriptor of an operation has its cost and, if it is fixed, its size. -/
theorem Descriptor.fields_of_ofOperation_eq_ok {operation : Operation} {descriptor : Descriptor}
    (hBuilt : ofOperation operation = .ok descriptor) :
    descriptor.cost = operation.cost ∧
      (descriptor.block = none → descriptor.size = operation.size) := by
  obtain ⟨opcode, _, ⟨_, kind, _, hMake⟩ | ⟨_, hMake⟩⟩ :=
    (ofOperation_eq_ok_iff operation descriptor).mp hBuilt
  · obtain ⟨hCost, _, hBlock⟩ := fields_of_make_eq_ok hMake
    rw [hBlock]
    exact ⟨hCost, nofun⟩
  · obtain ⟨hCost, hSize, _⟩ := fields_of_make_eq_ok hMake
    exact ⟨hCost, fun _ => hSize⟩

/-! ### The table of a checked specification -/

theorem exists_operation_of_mem_keptDescriptors {operations : List Operation}
    {descriptors : List Descriptor} (hKept : keptDescriptors operations = .ok descriptors)
    {descriptor : Descriptor} (hMem : descriptor ∈ descriptors) :
    ∃ operation ∈ operations, operation.isKept = true ∧
      Descriptor.ofOperation operation = .ok descriptor := by
  fun_induction keptDescriptors operations generalizing descriptors with
  | case1 =>
      cases hKept
      cases hMem
  | case2 operation rest hOperation fault hFault => cases hKept
  | case3 operation rest hOperation first hFirst fault hFault => cases hKept
  | case4 operation rest hOperation first hFirst others hOthers ih =>
      cases hKept
      rcases List.mem_cons.mp hMem with hSame | hRest
      · exact ⟨operation, List.mem_cons_self, hOperation, hSame ▸ hFirst⟩
      · obtain ⟨found, hFound, hFacts⟩ := ih hOthers hRest
        exact ⟨found, List.mem_cons_of_mem _ hFound, hFacts⟩
  | case5 operation rest hOperation ih =>
      obtain ⟨found, hFound, hFacts⟩ := ih hKept hMem
      exact ⟨found, List.mem_cons_of_mem _ hFound, hFacts⟩

theorem exists_ofOperation_eq_ok_of_keptDescriptors {operations : List Operation}
    {descriptors : List Descriptor} (hBuilt : keptDescriptors operations = .ok descriptors)
    {operation : Operation} (hMem : operation ∈ operations) (hKept : operation.isKept = true) :
    ∃ descriptor, Descriptor.ofOperation operation = .ok descriptor := by
  fun_induction keptDescriptors operations generalizing descriptors with
  | case1 => cases hMem
  | case2 first rest hFirstKept fault hFault => cases hBuilt
  | case3 first rest hFirstKept descriptor hDescriptor fault hFault => cases hBuilt
  | case4 first rest hFirstKept descriptor hDescriptor others hOthers ih =>
      rcases List.mem_cons.mp hMem with hSame | hRest
      · exact ⟨descriptor, hSame ▸ hDescriptor⟩
      · exact ih hOthers hRest
  | case5 first rest hDropped ih =>
      rcases List.mem_cons.mp hMem with hSame | hRest
      · exact absurd (hSame ▸ hKept) hDropped
      · exact ih hBuilt hRest

/-- Descriptors fail to be built only because that of a kept operation does. -/
theorem exists_ofOperation_eq_error_of_keptDescriptors {operations : List Operation}
    {fault : TableFault} (hFailed : keptDescriptors operations = .error fault) :
    ∃ operation ∈ operations, operation.isKept = true ∧
      Descriptor.ofOperation operation = .error fault := by
  fun_induction keptDescriptors operations with
  | case1 => cases hFailed
  | case2 first rest hFirstKept other hOther =>
      cases hFailed
      exact ⟨first, List.mem_cons_self, hFirstKept, hOther⟩
  | case3 first rest hFirstKept descriptor hDescriptor other hOther ih =>
      cases hFailed
      obtain ⟨found, hFound, hFacts⟩ := ih hOther
      exact ⟨found, List.mem_cons_of_mem _ hFound, hFacts⟩
  | case4 first rest hFirstKept descriptor hDescriptor others hOthers ih => cases hFailed
  | case5 first rest hDropped ih =>
      obtain ⟨found, hFound, hFacts⟩ := ih hFailed
      exact ⟨found, List.mem_cons_of_mem _ hFound, hFacts⟩

namespace Table

variable {spec : LangSpec} {table : Table}

theorem ofSpec_eq_ok_iff :
    ofSpec spec = .ok table ↔ ∃ descriptors, keptDescriptors spec.operations = .ok descriptors ∧
      table = ofDescriptors descriptors spec.evalMaxVersion spec.logicSigVersion := by
  rw [ofSpec]
  cases keptDescriptors spec.operations with
  | error fault => simp
  | ok descriptors => simp [eq_comm]

theorem ofSpec_eq_error_iff {fault : TableFault} :
    ofSpec spec = .error fault ↔ keptDescriptors spec.operations = .error fault := by
  rw [ofSpec]
  cases keptDescriptors spec.operations with
  | error other => simp
  | ok descriptors => simp

theorem exists_operation_of_get? (hTable : ofSpec spec = .ok table) {opcode : UInt8}
    {descriptor : Descriptor} (hGet : table.get? opcode = some descriptor) :
    ∃ operation ∈ spec.operations, operation.isKept = true ∧
      Descriptor.ofOperation operation = .ok descriptor := by
  obtain ⟨descriptors, hBuilt, hSame⟩ := ofSpec_eq_ok_iff.mp hTable
  rw [hSame] at hGet
  exact exists_operation_of_mem_keptDescriptors hBuilt (mem_of_get?_ofDescriptors hGet)

theorem evalMaxVersion_of_ofSpec_eq_ok (hTable : ofSpec spec = .ok table) :
    table.evalMaxVersion = spec.evalMaxVersion := by
  obtain ⟨descriptors, _, hSame⟩ := ofSpec_eq_ok_iff.mp hTable
  rw [hSame]
  rfl

/-- A checked specification fails to give a table only for an opcode of a kept operation that was
written as a real. -/
theorem exists_real_of_ofSpec_eq_error
    (hChecked : ∀ operation ∈ spec.operations, operation.Checked) {fault : TableFault}
    (hFailed : ofSpec spec = .error fault) :
    fault = .realOpcode ∧ ∃ operation ∈ spec.operations, operation.isKept = true ∧
      ∃ opcode : Binary64, operation.opcode = .real opcode := by
  obtain ⟨operation, hMem, hKept, hFault⟩ :=
    exists_ofOperation_eq_error_of_keptDescriptors (ofSpec_eq_error_iff.mp hFailed)
  cases hOpcode : operation.opcode with
  | real opcode =>
      rw [Descriptor.ofOperation, hOpcode] at hFault
      exact ⟨(Except.error.inj hFault).symm, operation, hMem, hKept, opcode, hOpcode⟩
  | integer opcode =>
      obtain ⟨descriptor, hDescriptor⟩ :=
        Descriptor.exists_ofOperation_eq_ok (hChecked operation hMem) hKept hOpcode
      rw [hDescriptor] at hFault
      cases hFault

theorem exists_ofSpec_eq_ok_iff (hChecked : ∀ operation ∈ spec.operations, operation.Checked) :
    (∃ table, ofSpec spec = .ok table) ↔
      ∀ operation ∈ spec.operations, operation.isKept = true →
        ∃ opcode : Int, operation.opcode = .integer opcode := by
  constructor
  · rintro ⟨table, hTable⟩ operation hMem hKept
    obtain ⟨descriptors, hBuilt, _⟩ := ofSpec_eq_ok_iff.mp hTable
    obtain ⟨descriptor, hDescriptor⟩ :=
      exists_ofOperation_eq_ok_of_keptDescriptors hBuilt hMem hKept
    obtain ⟨opcode, hOpcode, _⟩ :=
      (Descriptor.ofOperation_eq_ok_iff operation descriptor).mp hDescriptor
    exact ⟨opcode, hOpcode⟩
  · intro hOpcodes
    cases hSpec : ofSpec spec with
    | ok table => exact ⟨table, rfl⟩
    | error fault =>
        obtain ⟨_, operation, hMem, hKept, number, hReal⟩ :=
          exists_real_of_ofSpec_eq_error hChecked hSpec
        obtain ⟨opcode, hOpcode⟩ := hOpcodes operation hMem hKept
        rw [hReal] at hOpcode
        cases hOpcode

end Table

end LogicSignature.Opcode

namespace LogicSignature.Program

open Opcode (Descriptor Table)

/-! ### Real sizes and costs in a scan -/

theorem exists_start_add?_eq (descriptor : Descriptor) :
    ∃ next, Tally.start.add? descriptor = some next := by
  rw [Tally.start, Tally.add?]
  cases descriptor.cost with
  | integer cost => exact ⟨_, rfl⟩
  | real cost => exact ⟨_, rfl⟩

/-- An instruction of real size cannot be stepped over, so a program that goes on behind it
interrupts the scan. -/
theorem exists_validate_eq_realPosition {table : Table}
    (hVersion : table.evalMaxVersion.less (.integer 0) = false) {opcode : UInt8}
    {descriptor : Descriptor} {size : Binary64} (hGet : table.get? opcode = some descriptor)
    (hBlock : descriptor.block = none) (hSize : descriptor.size = .real size)
    (hIntegral : Quantity.isIntegral (.real size) = true) :
    ∃ limits program arguments, validate table limits program arguments = .error .realPosition := by
  obtain ⟨value, hValue⟩ := Quantity.exists_amounts hIntegral
  obtain ⟨next, hNext⟩ := exists_start_add?_eq descriptor
  -- Version zero, the opcode, and as many bytes as its size, of which it takes one less.
  let program : List UInt8 := 0 :: opcode :: List.replicate value.toNat 0
  let limits : Limits := ⟨totalLength program [], 0⟩
  have hAdmitted : Admitted table limits program [] 0 1 := ⟨rfl, hVersion, Int.le_refl _⟩
  have hReached : Reached table program 1 1 .start := ⟨[], .nil 1, rfl⟩
  have hDescribed : DescribedAt table program 1 descriptor := ⟨opcode, rfl, hGet⟩
  have hInside : Quantity.less (.real size) (.integer (program.length - 1 : Nat)) = true := by
    rw [hValue.less_integer, decide_eq_true_iff, List.length_cons, List.length_cons,
      List.length_replicate]
    omega
  have hInterrupted : Interrupted table limits program [] .realPosition :=
    .realPosition 0 1 1 .start next descriptor size hAdmitted hReached hDescribed hNext hBlock hSize
      hInside
  exact ⟨limits, program, [],
    (validate_eq_error_iff table limits program [] _).mpr (.inr hInterrupted)⟩

theorem exists_real_size_of_realPosition {table : Table} {limits : Limits} {program : List UInt8}
    {arguments : List (List UInt8)}
    (hError : validate table limits program arguments = .error .realPosition) :
    ∃ opcode descriptor size, table.get? opcode = some descriptor ∧ descriptor.block = none ∧
      descriptor.size = .real size := by
  cases (validate_eq_interruption_iff table limits program arguments (.inl rfl)).mp hError with
  | realPosition version start position tally next descriptor size hAdmitted hReached hDescribed
      hCost hBlock hSize hInside =>
      obtain ⟨opcode, _, hGet⟩ := hDescribed
      exact ⟨opcode, descriptor, size, hGet, hBlock, hSize⟩

/-- Integers can always be added, so a cost that cannot needs a table with a real one. -/
theorem exists_real_cost_of_costOverflow {table : Table} {limits : Limits} {program : List UInt8}
    {arguments : List (List UInt8)}
    (hError : validate table limits program arguments = .error .costOverflow) :
    ∃ opcode descriptor cost, table.get? opcode = some descriptor ∧
      descriptor.cost = .real cost := by
  cases (validate_eq_interruption_iff table limits program arguments (.inr rfl)).mp hError with
  | costOverflow version start position tally descriptor hAdmitted hReached hDescribed hCost =>
      by_contra hNone
      have hIntegers : table.HasIntegerCosts := by
        intro opcode found hGet
        cases hFound : found.cost with
        | integer cost => exact ⟨cost, rfl⟩
        | real cost => exact absurd ⟨opcode, found, cost, hGet, hFound⟩ hNone
      obtain ⟨next, hNext⟩ := hReached.exists_add?_eq hIntegers hDescribed
      rw [hNext] at hCost
      cases hCost

/-! ### Validation with a loaded table -/

theorem not_interrupted_of_ofSpec {spec : LangSpec} {table : Table}
    (hTable : Table.ofSpec spec = .ok table)
    (hIntegers : ∀ operation ∈ spec.operations, operation.isKept = true →
      (∃ cost : Int, operation.cost = .integer cost) ∧ ∃ size : Int, operation.size = .integer size)
    (limits : Limits) (program : List UInt8) (arguments : List (List UInt8)) (failure : Failure) :
    ¬ Interrupted table limits program arguments failure := by
  intro hInterrupted
  have hError := (validate_eq_error_iff table limits program arguments failure).mpr
    (.inr hInterrupted)
  cases hInterrupted with
  | realPosition =>
      obtain ⟨opcode, descriptor, size, hGet, hBlock, hSize⟩ :=
        exists_real_size_of_realPosition hError
      obtain ⟨operation, hMem, hKept, hBuilt⟩ := Table.exists_operation_of_get? hTable hGet
      obtain ⟨_, number, hNumber⟩ := hIntegers operation hMem hKept
      rw [(Descriptor.fields_of_ofOperation_eq_ok hBuilt).2 hBlock, hNumber] at hSize
      cases hSize
  | costOverflow =>
      obtain ⟨opcode, descriptor, cost, hGet, hCost⟩ := exists_real_cost_of_costOverflow hError
      obtain ⟨operation, hMem, hKept, hBuilt⟩ := Table.exists_operation_of_get? hTable hGet
      obtain ⟨⟨number, hNumber⟩, _⟩ := hIntegers operation hMem hKept
      rw [(Descriptor.fields_of_ofOperation_eq_ok hBuilt).1, hNumber] at hCost
      cases hCost

/-- A document without violations gives a specification, and the specification a table exactly if
the opcodes of its kept operations were written as integers. If their costs and sizes were too,
every program is answered with a report or with the first gate that fails. Some program makes a scan
fail for its position exactly if the table has a fixed size that is real, and for its cost only if
it has a real cost. A rejection is without words exactly if it shows a number that is too long. -/
theorem validate_of_loaded_table {document : Value} (hValid : LangSpec.violations document = [])
    (source : Text) :
    ∃ spec, LangSpec.parse document source = .ok spec ∧
      ((∃ table, Table.ofSpec spec = .ok table) ↔
        ∀ operation ∈ spec.operations, operation.isKept = true →
          ∃ opcode : Int, operation.opcode = .integer opcode) ∧
      (∀ fault, Table.ofSpec spec = .error fault → fault = .realOpcode) ∧
      ∀ table, Table.ofSpec spec = .ok table →
        ((∀ operation ∈ spec.operations, operation.isKept = true →
            (∃ cost : Int, operation.cost = .integer cost) ∧
              ∃ size : Int, operation.size = .integer size) →
          ∀ limits program arguments,
            (∃ report, validate table limits program arguments = .ok report) ∨
              ∃ rejection, FirstFailed table limits program arguments rejection ∧
                validate table limits program arguments =
                  .error (if rejection.isWritable then .rejected rejection else .unwritable)) ∧
        ((∃ limits program arguments,
            validate table limits program arguments = .error .realPosition) ↔
          ∃ opcode descriptor size, table.get? opcode = some descriptor ∧
            descriptor.block = none ∧ descriptor.size = .real size) ∧
        (∀ limits program arguments,
          validate table limits program arguments = .error .costOverflow →
            ∃ opcode descriptor cost, table.get? opcode = some descriptor ∧
              descriptor.cost = .real cost) ∧
        ∀ limits program arguments,
          validate table limits program arguments = .error .unwritable ↔
            ∃ rejection, FirstFailed table limits program arguments rejection ∧
              rejection.isWritable = false := by
  obtain ⟨spec, hParse, hVersion, hChecked⟩ := LangSpec.exists_parse_eq_ok hValid source
  refine ⟨spec, hParse, Table.exists_ofSpec_eq_ok_iff hChecked,
    fun fault hFailed => (Table.exists_real_of_ofSpec_eq_error hChecked hFailed).1, ?_⟩
  intro table hTable
  refine ⟨?_, ⟨?_, ?_⟩, ?_, ?_⟩
  · intro hIntegers limits program arguments
    cases hAnswer : validate table limits program arguments with
    | ok report => exact .inl ⟨report, rfl⟩
    | error failure =>
        rcases (validate_eq_error_iff table limits program arguments failure).mp hAnswer with
          ⟨rejection, hFailed, hFailure⟩ | hInterrupted
        · exact .inr ⟨rejection, hFailed, by rw [hFailure, Failure.worded]⟩
        · exact absurd hInterrupted
            (not_interrupted_of_ofSpec hTable hIntegers limits program arguments failure)
  · rintro ⟨limits, program, arguments, hError⟩
    exact exists_real_size_of_realPosition hError
  · rintro ⟨opcode, descriptor, size, hGet, hBlock, hSize⟩
    obtain ⟨operation, hMem, _, hBuilt⟩ := Table.exists_operation_of_get? hTable hGet
    have hNonneg : table.evalMaxVersion.less (.integer 0) = false := by
      rw [Table.evalMaxVersion_of_ofSpec_eq_ok hTable]
      exact hVersion.nonneg
    have hIntegral : Quantity.isIntegral (.real size) = true := by
      rw [← hSize, (Descriptor.fields_of_ofOperation_eq_ok hBuilt).2 hBlock]
      exact (hChecked operation hMem).size.integral
    exact exists_validate_eq_realPosition hNonneg hGet hBlock hSize hIntegral
  · intro limits program arguments hError
    exact exists_real_cost_of_costOverflow hError
  · intro limits program arguments
    exact validate_eq_unwritable_iff table limits program arguments

/-- A document with one operation, of cost one. -/
def oneOperation (opcode size : Quantity) : Value :=
  .record [("EvalMaxVersion", .integer 2), ("Ops", .list [.record [("Opcode", .ofQuantity opcode),
    ("Cost", .integer 1), ("Size", .ofQuantity size)]])]

theorem parse_oneOperation {opcode size : Quantity}
    (hValid : LangSpec.violations (oneOperation opcode size) = []) (source : Text) :
    LangSpec.parse (oneOperation opcode size) source =
      .ok ⟨.integer 2, .integer 2, [⟨opcode, "", .integer 1, size⟩], source⟩ := by
  rw [LangSpec.parse, LangSpec.ofDocument, hValid]
  cases opcode <;> cases size <;> rfl

theorem validate_of_integer_operation :
    LangSpec.violations (oneOperation (.integer 8) (.integer 1)) = [] ∧
      ∃ spec table, LangSpec.parse (oneOperation (.integer 8) (.integer 1)) "" = .ok spec ∧
        Table.ofSpec spec = .ok table ∧ ∀ limits program arguments,
          (∃ report, validate table limits program arguments = .ok report) ∨
            ∃ rejection, FirstFailed table limits program arguments rejection ∧
              validate table limits program arguments =
                .error (if rejection.isWritable then .rejected rejection else .unwritable) := by
  have hValid : LangSpec.violations (oneOperation (.integer 8) (.integer 1)) = [] :=
    (LangSpec.violations_eq_nil_iff _).mpr rfl
  obtain ⟨spec, hParse, hBuilds, _, hLoaded⟩ := validate_of_loaded_table hValid ""
  have hSpec := hParse
  rw [parse_oneOperation hValid, Except.ok.injEq] at hSpec
  have hOnly : ∀ operation ∈ spec.operations,
      operation = ⟨.integer 8, "", .integer 1, .integer 1⟩ := by
    intro operation hMem
    rw [← hSpec] at hMem
    exact List.mem_singleton.mp hMem
  obtain ⟨table, hTable⟩ := hBuilds.mpr (fun operation hMem _ => ⟨8, by rw [hOnly operation hMem]⟩)
  refine ⟨hValid, spec, table, hParse, hTable, (hLoaded table hTable).1 ?_⟩
  intro operation hMem _
  rw [hOnly operation hMem]
  exact ⟨⟨1, rfl⟩, 1, rfl⟩

/-- An opcode written as a real gives no table; a size written as a real gives one whose scan
fails. -/
theorem validate_of_real_operation :
    (LangSpec.violations (oneOperation (.real (.ofInt 8)) (.integer 1)) = [] ∧
      ∃ spec, LangSpec.parse (oneOperation (.real (.ofInt 8)) (.integer 1)) "" = .ok spec ∧
        Table.ofSpec spec = .error .realOpcode) ∧
    LangSpec.violations (oneOperation (.integer 8) (.real (.ofInt 1))) = [] ∧
      ∃ spec table, LangSpec.parse (oneOperation (.integer 8) (.real (.ofInt 1))) "" = .ok spec ∧
        Table.ofSpec spec = .ok table ∧
        validate table {} [0x01, 0x08, 0x08] [] = .error .realPosition := by
  have hOpcode : LangSpec.violations (oneOperation (.real (.ofInt 8)) (.integer 1)) = [] :=
    (LangSpec.violations_eq_nil_iff _).mpr rfl
  have hSize : LangSpec.violations (oneOperation (.integer 8) (.real (.ofInt 1))) = [] :=
    (LangSpec.violations_eq_nil_iff _).mpr rfl
  exact ⟨⟨hOpcode, _, parse_oneOperation hOpcode "", rfl⟩,
    hSize, _, _, parse_oneOperation hSize "", rfl, rfl⟩

end LogicSignature.Program
