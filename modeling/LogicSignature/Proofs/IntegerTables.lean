import Mathlib.Algebra.BigOperators.Group.List.Basic
import LogicSignature.Proofs.Gates
import LogicSignature.Proofs.OpcodeTable

/-
Validation with a table whose numbers are all integers.

Costs then add up to an integer and every size is a number of bytes, so nothing interrupts the scan:
a program is accepted exactly if its instructions fill it within the limits, and otherwise the first
gate that fails is the answer.
-/

namespace LogicSignature.Program

open Opcode (Descriptor Table)

/-- The costs of instructions, as integers. -/
def CostsOf (steps : List Placed) (costs : List Int) : Prop :=
  steps.map (fun placed => placed.descriptor.cost) = costs.map Quantity.integer

/-- The version decodes and is supported, and program and arguments are not too long. -/
structure WithinLimits (evalMaxVersion : Int) (limits : Limits) (program : List UInt8)
    (arguments : List (List UInt8)) (version start : Nat) : Prop where
  decoded : Varint.decode program = .decoded version start
  supported : (version : Int) ≤ evalMaxVersion
  fits : ((program.length + (arguments.map List.length).sum : Nat) : Int) ≤ limits.maxLength

/-- When each rejection is due: no gate before its own fails, and its own gate does. What the
instructions before one that cannot be stepped over cost plays no part. -/
def Rejection.Due (table : Table) (evalMaxVersion : Int) (limits : Limits) (program : List UInt8)
    (arguments : List (List UInt8)) : Rejection → Prop
  | .malformedVersion => ∀ version start, Varint.decode program ≠ .decoded version start
  | .unsupportedVersion version maxVersion =>
    (∃ start, Varint.decode program = .decoded version start) ∧
      evalMaxVersion < version ∧ maxVersion = .integer evalMaxVersion
  | .tooLong length maxLength =>
    (∃ version start, Varint.decode program = .decoded version start ∧
      (version : Int) ≤ evalMaxVersion) ∧
      length = program.length + (arguments.map List.length).sum ∧
      limits.maxLength < length ∧ maxLength = limits.maxLength
  | .invalidInstruction opcode position =>
    ∃ version start steps, WithinLimits evalMaxVersion limits program arguments version start ∧
      Path table program start steps position ∧
      program[position]? = some opcode ∧ table.get? opcode = none
  | .undecodableBlock kind position fault =>
    ∃ (version start offset : Nat) (steps : List Placed) (descriptor : Descriptor),
      WithinLimits evalMaxVersion limits program arguments version start ∧
      Path table program start steps offset ∧ position = offset ∧
      DescribedAt table program offset descriptor ∧ descriptor.block = some kind ∧
      (∀ block rest, program.drop offset = block ++ rest → ¬ ConstBlock.BlockForm kind block) ∧
      ConstBlock.measure kind (program.drop (offset + 1)) = .error fault
  | .tooCostly cost maxCost =>
    ∃ version start steps stop costs,
      WithinLimits evalMaxVersion limits program arguments version start ∧
      Segmentation table program start steps stop ∧ CostsOf steps costs ∧
      limits.maxCost < costs.sum ∧ cost = .integer costs.sum ∧ maxCost = limits.maxCost

theorem totalLength_eq (program : List UInt8) (arguments : List (List UInt8)) :
    totalLength program arguments = program.length + (arguments.map List.length).sum := by
  rw [totalLength]
  induction arguments with
  | nil => rfl
  | cons argument rest ih =>
      rw [List.foldr_cons, ih, List.map_cons, List.sum_cons]
      omega

/-! ### Sums of integer costs -/

theorem CostsOf.after?_eq {steps : List Placed} {costs : List Int} (hCosts : CostsOf steps costs)
    (total : Int) (count : Nat) :
    Tally.after? ⟨.integer total, count⟩ steps =
      some ⟨.integer (total + costs.sum), count + steps.length⟩ := by
  induction steps generalizing costs total count with
  | nil =>
      have hNone : costs = [] := List.map_eq_nil_iff.mp hCosts.symm
      rw [hNone, List.sum_nil, Int.add_zero]
      rfl
  | cons placed rest ih =>
      obtain ⟨cost, others, hSplit, hCost, hOthers⟩ := List.map_eq_cons_iff.mp hCosts.symm
      have hPlaced : placed.descriptor.cost = .integer cost := hCost.symm
      have hAdd : Tally.add? ⟨.integer total, count⟩ placed.descriptor =
          some ⟨.integer (total + cost), count + 1⟩ := by
        rw [Tally.add?, hPlaced, Quantity.add?_integer, Option.map_some]
      rw [Tally.after?, hAdd, Option.bind_some, ih hOthers.symm, hSplit, List.sum_cons,
        List.length_cons, Int.add_assoc, Nat.add_right_comm, Nat.add_assoc]

theorem CostsOf.unique {steps : List Placed} {costs others : List Int}
    (hCosts : CostsOf steps costs) (hOthers : CostsOf steps others) : costs = others := by
  apply List.map_injective_iff.mpr (fun _ _ => Quantity.integer.inj)
  exact hCosts.symm.trans hOthers

theorem CostsOf.append {steps others : List Placed} {costs otherCosts : List Int}
    (hCosts : CostsOf steps costs) (hOthers : CostsOf others otherCosts) :
    CostsOf (steps ++ others) (costs ++ otherCosts) := by
  rw [CostsOf, List.map_append, List.map_append, hCosts, hOthers]

/-- Some of the instructions cost no more than all of them, since no cost is negative. -/
theorem CostsOf.filter {steps : List Placed} {costs : List Int} (hCosts : CostsOf steps costs)
    (keep : Placed → Bool) :
    ∃ kept, CostsOf (steps.filter keep) kept ∧ kept.sum ≤ costs.sum := by
  induction steps generalizing costs with
  | nil =>
      have hNone : costs = [] := List.map_eq_nil_iff.mp hCosts.symm
      exact ⟨[], rfl, by rw [hNone]⟩
  | cons placed rest ih =>
      obtain ⟨cost, others, hSplit, hCost, hOthers⟩ := List.map_eq_cons_iff.mp hCosts.symm
      obtain ⟨kept, hKept, hSum⟩ := ih hOthers.symm
      have hPlaced : placed.descriptor.cost = .integer cost := hCost.symm
      have hNonneg := placed.descriptor.cost_nonneg
      rw [hPlaced, Quantity.less_integer, decide_eq_false_iff_not, Int.not_lt] at hNonneg
      rw [hSplit, List.sum_cons]
      cases hKeep : keep placed with
      | true =>
          refine ⟨cost :: kept, ?_, ?_⟩
          · rw [List.filter_cons_of_pos hKeep, CostsOf, List.map_cons, List.map_cons, hPlaced,
              hKept]
          · rw [List.sum_cons]
            omega
      | false =>
          refine ⟨kept, ?_, by omega⟩
          rw [List.filter_cons_of_neg (by rw [hKeep]; exact Bool.false_ne_true)]
          exact hKept

theorem CostsOf.sum_nonneg {steps : List Placed} {costs : List Int} (hCosts : CostsOf steps costs) :
    0 ≤ costs.sum := by
  obtain ⟨kept, hKept, hSum⟩ := hCosts.filter (fun _ => false)
  rw [List.filter_false] at hKept
  have hNone : kept = [] := List.map_eq_nil_iff.mp hKept.symm
  rwa [hNone, List.sum_nil] at hSum

section

variable {table : Table} {program : List UInt8}

theorem DescribedAt.isInteger (hTable : table.IsInteger) {position : Nat} {descriptor : Descriptor}
    (hDescribed : DescribedAt table program position descriptor) : descriptor.IsInteger := by
  obtain ⟨opcode, _, hGet⟩ := hDescribed
  exact hTable opcode descriptor hGet

theorem Path.exists_costs (hTable : table.HasIntegerCosts) {start stop : Nat} {steps : List Placed}
    (hPath : Path table program start steps stop) : ∃ costs, CostsOf steps costs := by
  induction hPath with
  | nil position => exact ⟨[], rfl⟩
  | cons hInstruction hRest ih =>
      obtain ⟨costs, hCosts⟩ := ih
      obtain ⟨opcode, _, hGet⟩ := hInstruction.described
      obtain ⟨cost, hCost⟩ := hTable opcode _ hGet
      refine ⟨cost :: costs, ?_⟩
      rw [CostsOf, List.map_cons, List.map_cons, hCost, hCosts]

/-- Along every path the tally is the sum of the costs and the number of instructions. -/
theorem reached_iff (hTable : table.HasIntegerCosts) {start position : Nat} {tally : Tally} :
    Reached table program start position tally ↔
      ∃ steps costs, Path table program start steps position ∧ CostsOf steps costs ∧
        tally = ⟨.integer costs.sum, steps.length⟩ := by
  have hAfter : ∀ {steps costs}, CostsOf steps costs →
      Tally.start.after? steps = some ⟨.integer costs.sum, steps.length⟩ := by
    intro steps costs hCosts
    have hSum := hCosts.after?_eq 0 0
    rw [Int.zero_add, Nat.zero_add] at hSum
    exact hSum
  constructor
  · rintro ⟨steps, hPath, hTally⟩
    obtain ⟨costs, hCosts⟩ := hPath.exists_costs hTable
    rw [hAfter hCosts] at hTally
    exact ⟨steps, costs, hPath, hCosts, (Option.some.inj hTally).symm⟩
  · rintro ⟨steps, costs, hPath, hCosts, hTally⟩
    exact ⟨steps, hPath, by rw [hTally, hAfter hCosts]⟩

theorem completed_iff (hTable : table.IsInteger) {start : Nat} {final : Tally} :
    Completed table program start final ↔
      ∃ steps stop costs, Segmentation table program start steps stop ∧ CostsOf steps costs ∧
        final = ⟨.integer costs.sum, steps.length⟩ := by
  constructor
  · rintro ⟨position, tally, hReached, hHalts⟩
    obtain ⟨steps, costs, hPath, hCosts, hTally⟩ := (reached_iff hTable.hasIntegerCosts).mp hReached
    cases hHalts with
    | finished hEnd => exact ⟨steps, position, costs, ⟨hPath, hEnd⟩, hCosts, hTally⟩
    | realEnd descriptor next size hDescribed hCost hBlock hSize hBehind =>
        obtain ⟨_, number, _, hNumber⟩ := (hDescribed.isInteger hTable).exists_numbers
        rw [hNumber] at hSize
        cases hSize
  · rintro ⟨steps, stop, costs, hSegmentation, hCosts, hFinal⟩
    have hReached := (reached_iff hTable.hasIntegerCosts).mpr
      ⟨steps, costs, hSegmentation.path, hCosts, hFinal⟩
    exact ⟨stop, final, hReached, .finished hSegmentation.ended⟩

theorem Reached.exists_add?_eq (hTable : table.HasIntegerCosts) {start position : Nat}
    {tally : Tally} (hReached : Reached table program start position tally)
    {descriptor : Descriptor} (hDescribed : DescribedAt table program position descriptor) :
    ∃ next, tally.add? descriptor = some next := by
  obtain ⟨steps, costs, _, _, hTally⟩ := (reached_iff hTable).mp hReached
  obtain ⟨opcode, _, hGet⟩ := hDescribed
  obtain ⟨cost, hCost⟩ := hTable opcode descriptor hGet
  exact ⟨_, by rw [hTally, Tally.add?, hCost, Quantity.add?_integer, Option.map_some]⟩

theorem not_interrupted (hTable : table.IsInteger) (limits : Limits)
    (arguments : List (List UInt8)) (failure : Failure) :
    ¬ Interrupted table limits program arguments failure := by
  intro hInterrupted
  cases hInterrupted with
  | realPosition version start position tally next descriptor size hAdmitted hReached hDescribed
      hCost hBlock hSize hInside =>
      obtain ⟨_, number, _, hNumber⟩ := (hDescribed.isInteger hTable).exists_numbers
      rw [hNumber] at hSize
      cases hSize
  | costOverflow version start position tally descriptor hAdmitted hReached hDescribed hCost =>
      obtain ⟨next, hNext⟩ := hReached.exists_add?_eq hTable.hasIntegerCosts hDescribed
      rw [hNext] at hCost
      cases hCost

/-! ### The gates with integers -/

variable {evalMaxVersion : Int} {limits : Limits} {arguments : List (List UInt8)}

theorem admitted_iff (hVersion : table.evalMaxVersion = .integer evalMaxVersion)
    {version start : Nat} :
    Admitted table limits program arguments version start ↔
      WithinLimits evalMaxVersion limits program arguments version start := by
  constructor
  · rintro ⟨hDecoded, hSupported, hFits⟩
    rw [hVersion, Quantity.less_integer, decide_eq_false_iff_not, Int.not_lt] at hSupported
    rw [totalLength_eq] at hFits
    exact ⟨hDecoded, hSupported, hFits⟩
  · rintro ⟨hDecoded, hSupported, hFits⟩
    rw [← totalLength_eq] at hFits
    refine ⟨hDecoded, ?_, hFits⟩
    rw [hVersion, Quantity.less_integer, decide_eq_false_iff_not, Int.not_lt]
    exact hSupported

theorem accepted_iff (hTable : table.IsInteger)
    (hVersion : table.evalMaxVersion = .integer evalMaxVersion) (report : Report) :
    Accepted table limits program arguments report ↔
      ∃ version start steps stop costs,
        WithinLimits evalMaxVersion limits program arguments version start ∧
        Segmentation table program start steps stop ∧ CostsOf steps costs ∧
        costs.sum ≤ limits.maxCost ∧
        report = ⟨version, program.length + (arguments.map List.length).sum,
          .integer costs.sum, steps.length⟩ := by
  constructor
  · rintro ⟨version, start, final, hAdmitted, hCompleted, hCheap⟩
    obtain ⟨steps, stop, costs, hSegmentation, hCosts, hFinal⟩ :=
      (completed_iff hTable).mp hCompleted
    rw [hFinal, Quantity.less_integer, decide_eq_false_iff_not, Int.not_lt] at hCheap
    exact ⟨version, start, steps, stop, costs, (admitted_iff hVersion).mp hAdmitted, hSegmentation,
      hCosts, hCheap, by rw [hFinal, totalLength_eq]⟩
  · rintro ⟨version, start, steps, stop, costs, hWithin, hSegmentation, hCosts, hCheap, hReport⟩
    have hCompleted := (completed_iff hTable).mpr ⟨steps, stop, costs, hSegmentation, hCosts, rfl⟩
    rw [hReport, ← totalLength_eq]
    refine .intro version start _ ((admitted_iff hVersion).mpr hWithin) hCompleted ?_
    rw [Quantity.less_integer, decide_eq_false_iff_not, Int.not_lt]
    exact hCheap

theorem FirstFailed.due (hTable : table.IsInteger)
    (hVersion : table.evalMaxVersion = .integer evalMaxVersion) {rejection : Rejection}
    (hFailed : FirstFailed table limits program arguments rejection) :
    rejection.Due table evalMaxVersion limits program arguments := by
  cases hFailed with
  | malformedVersion hUndecoded => exact hUndecoded
  | unsupportedVersion version start hDecoded hNewer =>
      rw [hVersion, Quantity.less_integer, decide_eq_true_iff] at hNewer
      exact ⟨⟨start, hDecoded⟩, hNewer, hVersion⟩
  | tooLong version start hDecoded hSupported hLong =>
      rw [hVersion, Quantity.less_integer, decide_eq_false_iff_not, Int.not_lt] at hSupported
      exact ⟨⟨version, start, hDecoded, hSupported⟩, totalLength_eq program arguments, hLong, rfl⟩
  | invalidInstruction version start position tally opcode hAdmitted hReached hOpcode hNone =>
      obtain ⟨steps, hPath, _⟩ := hReached
      exact ⟨version, start, steps, (admitted_iff hVersion).mp hAdmitted, hPath, hOpcode, hNone⟩
  | undecodableBlock version start position tally next descriptor kind fault hAdmitted hReached
      hDescribed hCost hBlock hNone hFault =>
      obtain ⟨steps, hPath, _⟩ := hReached
      exact ⟨version, start, position, steps, descriptor, (admitted_iff hVersion).mp hAdmitted,
        hPath, rfl, hDescribed, hBlock, hNone, hFault⟩
  | tooCostly version start final hAdmitted hCompleted hCostly =>
      obtain ⟨steps, stop, costs, hSegmentation, hCosts, hFinal⟩ :=
        (completed_iff hTable).mp hCompleted
      rw [hFinal, Quantity.less_integer, decide_eq_true_iff] at hCostly
      exact ⟨version, start, steps, stop, costs, (admitted_iff hVersion).mp hAdmitted,
        hSegmentation, hCosts, hCostly, by rw [hFinal], rfl⟩

/-- With integers every path is followed, so a rejection that is due is that of the first gate that
fails. -/
theorem Rejection.Due.firstFailed (hTable : table.IsInteger)
    (hVersion : table.evalMaxVersion = .integer evalMaxVersion) {rejection : Rejection}
    (hDue : rejection.Due table evalMaxVersion limits program arguments) :
    FirstFailed table limits program arguments rejection := by
  -- A path alone is enough, since integer costs along it always add up.
  have hReached : ∀ {start steps position}, Path table program start steps position →
      ∃ tally, Reached table program start position tally := by
    intro start steps position hPath
    obtain ⟨costs, hCosts⟩ := hPath.exists_costs hTable.hasIntegerCosts
    exact ⟨_, (reached_iff hTable.hasIntegerCosts).mpr ⟨steps, costs, hPath, hCosts, rfl⟩⟩
  cases rejection with
  | malformedVersion => exact .malformedVersion hDue
  | unsupportedVersion version maxVersion =>
      obtain ⟨⟨start, hDecoded⟩, hNewer, hMax⟩ := hDue
      rw [hMax, ← hVersion]
      refine .unsupportedVersion version start hDecoded ?_
      rw [hVersion, Quantity.less_integer, decide_eq_true_iff]
      exact hNewer
  | tooLong length maxLength =>
      obtain ⟨⟨version, start, hDecoded, hSupported⟩, hLength, hLong, hMax⟩ := hDue
      rw [← totalLength_eq] at hLength
      subst hLength hMax
      refine .tooLong version start hDecoded ?_ hLong
      rw [hVersion, Quantity.less_integer, decide_eq_false_iff_not, Int.not_lt]
      exact hSupported
  | invalidInstruction opcode position =>
      obtain ⟨version, start, steps, hWithin, hPath, hOpcode, hNone⟩ := hDue
      obtain ⟨tally, hTally⟩ := hReached hPath
      exact .invalidInstruction version start position tally opcode
        ((admitted_iff hVersion).mpr hWithin) hTally hOpcode hNone
  | undecodableBlock kind position fault =>
      obtain ⟨version, start, offset, steps, descriptor, hWithin, hPath, hPosition, hDescribed,
        hBlock, hNone, hFault⟩ := hDue
      obtain ⟨tally, hTally⟩ := hReached hPath
      obtain ⟨next, hNext⟩ := hTally.exists_add?_eq hTable.hasIntegerCosts hDescribed
      subst hPosition
      exact .undecodableBlock version start offset tally next descriptor kind fault
        ((admitted_iff hVersion).mpr hWithin) hTally hDescribed hNext hBlock hNone hFault
  | tooCostly cost maxCost =>
      obtain ⟨version, start, steps, stop, costs, hWithin, hSegmentation, hCosts, hCostly, hCost,
        hMax⟩ := hDue
      have hCompleted := (completed_iff hTable).mpr ⟨steps, stop, costs, hSegmentation, hCosts, rfl⟩
      subst hCost hMax
      refine .tooCostly version start _ ((admitted_iff hVersion).mpr hWithin) hCompleted ?_
      rw [Quantity.less_integer, decide_eq_true_iff]
      exact hCostly

end

/-! ### Acceptance -/

/-- A program is accepted exactly if version and length are within their limits, instructions fill
the program from the version to its end, and their costs add up to no more than the limit. There is
one such row of instructions, the report says what was found, and only a last instruction of fixed
size reaches beyond the end. -/
theorem validate_eq_ok_iff_segmentation {descriptors : List Descriptor}
    (hIntegers : ∀ descriptor ∈ descriptors, descriptor.IsInteger)
    (evalMaxVersion logicSigVersion : Int) (limits : Limits) (program : List UInt8)
    (arguments : List (List UInt8)) :
    let table :=
      Table.ofDescriptors descriptors (.integer evalMaxVersion) (.integer logicSigVersion)
    (∀ report, validate table limits program arguments = .ok report ↔
      ∃ version start steps stop costs,
        WithinLimits evalMaxVersion limits program arguments version start ∧
        Segmentation table program start steps stop ∧ CostsOf steps costs ∧
        costs.sum ≤ limits.maxCost ∧
        report = ⟨version, program.length + (arguments.map List.length).sum,
          .integer costs.sum, steps.length⟩) ∧
    (∀ start steps stop others otherStop, Segmentation table program start steps stop →
      Segmentation table program start others otherStop → steps = others ∧ stop = otherStop) ∧
    ∀ version start steps stop, Varint.decode program = .decoded version start →
      Segmentation table program start steps stop →
      (steps.map Placed.position ++ [stop]).head? = some start ∧
      (steps.map Placed.position ++ [stop]).Pairwise (· < ·) ∧
      (∀ placed ∈ steps, placed.position < program.length) ∧ program.length ≤ stop ∧
      (program.length < stop →
        ∃ last, steps.getLast? = some last ∧ last.descriptor.block = none) := by
  intro table
  have hTable : table.IsInteger := Table.isInteger_ofDescriptors hIntegers _ _
  refine ⟨?_, ?_, ?_⟩
  · intro report
    rw [validate_eq_ok_iff, accepted_iff hTable rfl]
  · intro start steps stop others otherStop hSteps hOthers
    exact hSteps.unique hOthers
  · intro version start steps stop hDecoded hSegmentation
    obtain ⟨hHead, hIncreasing, hDescribed⟩ := hSegmentation.path.positions
    have hStart : start ≤ program.length := Varint.length_le_of_decode_eq hDecoded
    exact ⟨hHead, hIncreasing, fun placed hPlaced => (hDescribed placed hPlaced).lt_length,
      hSegmentation.ended, hSegmentation.path.last_fixed_of_overrun hStart⟩

/-- Descriptors of an integer block and of an instruction with two bytes of operands. -/
def blockAndBranch : List Descriptor :=
  [{ opcode := 0x20, cost := .integer 1, size := .integer 0, name := "intcblock"
     block := some .integers, cost_nonneg := by decide, size_pos := nofun },
   { opcode := 0x42, cost := .integer 2, size := .integer 3, name := "b", block := none
     cost_nonneg := by decide, size_pos := by decide }]

theorem blockAndBranch_isInteger :
    ∀ descriptor ∈ blockAndBranch, descriptor.IsInteger := by
  intro descriptor hMem
  rcases List.mem_cons.mp hMem with rfl | hMem
  · exact ⟨0x20, 1, 0, "intcblock", some .integers, rfl⟩
  · rcases List.mem_singleton.mp hMem with rfl
    exact ⟨0x42, 2, 3, "b", none, rfl⟩

theorem segmentation_of_block_and_branch :
    (∀ descriptor ∈ blockAndBranch, descriptor.IsInteger) ∧
      ∃ version start steps stop costs,
        WithinLimits 1 {} [0x01, 0x20, 0x02, 0x05, 0x80, 0x01, 0x42, 0x00] [[0x07]] version start ∧
        Segmentation (Table.ofDescriptors blockAndBranch (.integer 1) (.integer 1))
          [0x01, 0x20, 0x02, 0x05, 0x80, 0x01, 0x42, 0x00] start steps stop ∧
        CostsOf steps costs ∧ costs.sum ≤ defaultMaxCost ∧
        (⟨1, 9, .integer 3, 2⟩ : Report) = ⟨version, 9, .integer costs.sum, steps.length⟩ :=
  ⟨blockAndBranch_isInteger,
    ((validate_eq_ok_iff_segmentation blockAndBranch_isInteger 1 1 {} _ _).1 _).mp rfl⟩

/-! ### Rejection -/

/-- A program is refused exactly with the rejection that is due, and there is only one. A rejection
that shows a number with too many digits is refused without words. -/
theorem validate_eq_error_iff_due {descriptors : List Descriptor}
    (hIntegers : ∀ descriptor ∈ descriptors, descriptor.IsInteger)
    (evalMaxVersion logicSigVersion : Int) (limits : Limits) (program : List UInt8)
    (arguments : List (List UInt8)) :
    let table :=
      Table.ofDescriptors descriptors (.integer evalMaxVersion) (.integer logicSigVersion)
    (∀ failure, validate table limits program arguments = .error failure ↔
      ∃ rejection : Rejection, rejection.Due table evalMaxVersion limits program arguments ∧
        failure = if rejection.isWritable then .rejected rejection else .unwritable) ∧
    ∀ rejection other : Rejection, rejection.Due table evalMaxVersion limits program arguments →
      other.Due table evalMaxVersion limits program arguments → rejection = other := by
  intro table
  have hTable : table.IsInteger := Table.isInteger_ofDescriptors hIntegers _ _
  constructor
  · intro failure
    rw [validate_eq_error_iff]
    constructor
    · rintro (⟨rejection, hFailed, hFailure⟩ | hInterrupted)
      · exact ⟨rejection, hFailed.due hTable rfl, hFailure⟩
      · exact absurd hInterrupted (not_interrupted hTable limits arguments failure)
    · rintro ⟨rejection, hDue, hFailure⟩
      exact .inl ⟨rejection, hDue.firstFailed hTable rfl, hFailure⟩
  · intro rejection other hDue hOther
    have hCheck := (hDue.firstFailed hTable rfl).check_eq
    rw [(hOther.firstFailed hTable rfl).check_eq] at hCheck
    exact (Failure.rejected.inj (Except.error.inj hCheck)).symm

/-- The unknown opcode behind the branch is reported although the branch alone costs too much. -/
theorem validate_unknown_behind_costly_branch :
    (∀ descriptor ∈ blockAndBranch, descriptor.IsInteger) ∧
      validate (Table.ofDescriptors blockAndBranch (.integer 1) (.integer 1)) ⟨1000, 1⟩
        [0x01, 0x42, 0x00, 0x00, 0x99] [] = .error (.rejected (.invalidInstruction 0x99 4)) :=
  ⟨blockAndBranch_isInteger,
    ((validate_eq_error_iff_due blockAndBranch_isInteger 1 1 ⟨1000, 1⟩ _ _).1 _).mpr
      ⟨.invalidInstruction 0x99 4,
        ⟨1, 1, _, ⟨rfl, by decide, by decide⟩, .cons ⟨⟨0x42, rfl, rfl⟩, .fixed 3 rfl rfl⟩ (.nil 4),
          rfl, rfl⟩,
        by decide +kernel⟩⟩

/-- The cost of one such instruction can just be written, that of two cannot. -/
def longestCost : Descriptor :=
  { opcode := 0x01
    cost := .integer (Numeral.writableBound - 1 : Nat)
    size := .integer 1
    name := ""
    block := none
    cost_nonneg := by decide +kernel
    size_pos := by decide }

/-- The cost gate fails, but its rejection has no words. -/
theorem validate_unwritable_cost :
    longestCost.IsInteger ∧
      check (Table.ofDescriptors [longestCost] (.integer 1) (.integer 1)) {} [0x01, 0x01, 0x01] [] =
        .error (.rejected
          (.tooCostly (.integer (2 * (Numeral.writableBound - 1) : Nat)) defaultMaxCost)) ∧
      validate (Table.ofDescriptors [longestCost] (.integer 1) (.integer 1)) {} [0x01, 0x01, 0x01]
        [] = .error .unwritable := by
  refine ⟨⟨1, (Numeral.writableBound - 1 : Nat), 1, "", none, ?_⟩, by decide +kernel,
    by decide +kernel⟩
  rw [Descriptor.make, if_neg (by decide), dif_neg (by decide +kernel), dif_neg (by decide +kernel)]
  rfl

end LogicSignature.Program
