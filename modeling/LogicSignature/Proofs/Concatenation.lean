import LogicSignature.Proofs.PathLocality
import LogicSignature.Proofs.RefusalWording

/-
Concatenated programs.

A program whose instructions end exactly at its end is continued by more bytes as if these stood
right behind its version: what is found in them is the same, further back by the length of the
instructions in front. Costs and numbers of instructions add up.
-/

namespace LogicSignature.Program

open Opcode (Descriptor Table)

/-- Neither limit is exceeded. The limit on the cost counts where instructions fill the program. -/
structure Unexceeded (table : Table) (limits : Limits) (program : List UInt8)
    (arguments : List (List UInt8)) : Prop where
  length : ((program.length + (arguments.map List.length).sum : Nat) : Int) ≤ limits.maxLength
  cost : ∀ version start steps stop costs, Varint.decode program = .decoded version start →
    Segmentation table program start steps stop → CostsOf steps costs →
    costs.sum ≤ limits.maxCost

theorem CostsOf.relocate {steps : List Placed} {costs : List Int} (hCosts : CostsOf steps costs)
    (source target : Nat) : CostsOf (steps.map (Placed.relocate source target)) costs := by
  rw [CostsOf, List.map_map]
  exact hCosts

section

variable {table : Table} {program suffix : List UInt8} {version start : Nat}

/-! ### The version and the instructions behind it -/

theorem decode_append (hDecoded : Varint.decode program = .decoded version start)
    (suffix : List UInt8) : Varint.decode (program ++ suffix) = .decoded version start := by
  have hWhole := Varint.decode_take_append hDecoded (program.drop start ++ suffix)
  rwa [← List.append_assoc, List.take_append_drop] at hWhole

theorem length_head (hDecoded : Varint.decode program = .decoded version start) :
    (program.take start).length = start :=
  List.length_take_of_le (Varint.length_le_of_decode_eq hDecoded)

/-- What stands behind the version alone stands behind the whole program as well. -/
theorem drop_behind (hDecoded : Varint.decode program = .decoded version start)
    (suffix : List UInt8) {position : Nat} (hPosition : start ≤ position) :
    (program ++ suffix).drop (position + program.length - start) =
      (program.take start ++ suffix).drop position := by
  have hHead := length_head hDecoded
  have hBehind : (program.take start).length ≤ position := by omega
  have hMoved := drop_relocate (program.take start) program suffix hBehind
  rw [hHead] at hMoved
  rw [← hMoved]
  congr 1
  omega

/-- Instructions behind the version alone, put behind the instructions of a program. -/
theorem Path.behind (hDecoded : Varint.decode program = .decoded version start)
    {steps parts : List Placed} {position : Nat}
    (hSteps : Path table program start steps program.length)
    (hParts : Path table (program.take start ++ suffix) start parts position) :
    Path table (program ++ suffix) start
      (steps ++ parts.map (Placed.relocate start program.length))
      (position + program.length - start) := by
  have hHead := length_head hDecoded
  have hLater := hParts.start_le_stop
  have hMoved := hParts.relocate (Nat.le_of_eq hHead) program
  rw [hHead, Nat.sub_self, Nat.zero_add] at hMoved
  have hPosition : position + program.length - start = position - start + program.length := by
    omega
  rw [hPosition]
  exact (hSteps.append suffix).trans hMoved

theorem Segmentation.behind (hDecoded : Varint.decode program = .decoded version start)
    {steps parts : List Placed} {stop : Nat}
    (hSteps : Segmentation table program start steps program.length)
    (hParts : Segmentation table (program.take start ++ suffix) start parts stop) :
    Segmentation table (program ++ suffix) start
      (steps ++ parts.map (Placed.relocate start program.length))
      (stop + program.length - start) := by
  refine ⟨hSteps.path.behind hDecoded hParts.path, ?_⟩
  have hEnd := hParts.ended
  rw [List.length_append, length_head hDecoded] at hEnd
  rw [List.length_append]
  omega

/-! ### Answers behind the version alone and behind the program -/

variable {evalMaxVersion : Int} {limits : Limits} {arguments : List (List UInt8)}
  {steps : List Placed}

theorem withinLimits_append
    (hWithin : WithinLimits evalMaxVersion limits program arguments version start)
    (hLimits : Unexceeded table limits (program ++ suffix) arguments) :
    WithinLimits evalMaxVersion limits (program ++ suffix) arguments version start :=
  ⟨decode_append hWithin.decoded suffix, hWithin.supported, hLimits.length⟩

theorem withinLimits_head
    (hWithin : WithinLimits evalMaxVersion limits program arguments version start)
    (hLimits : Unexceeded table limits (program ++ suffix) arguments) :
    WithinLimits evalMaxVersion limits (program.take start ++ suffix) arguments version start := by
  refine ⟨Varint.decode_take_append hWithin.decoded suffix, hWithin.supported, ?_⟩
  have hLength := hLimits.length
  have hStart := Varint.length_le_of_decode_eq hWithin.decoded
  rw [List.length_append] at hLength
  rw [List.length_append, length_head hWithin.decoded]
  omega

/-- A rejection for an instruction behind the program instead of behind its version. -/
def Rejection.behind (start length : Nat) : Rejection → Rejection
  | .invalidInstruction opcode position => .invalidInstruction opcode (position + length - start)
  | .undecodableBlock kind position fault =>
    .undecodableBlock kind (position + length - start) fault
  | other => other

theorem Rejection.IsStructural.behind {rejection : Rejection}
    (hStructural : rejection.IsStructural) (start length : Nat) :
    (rejection.behind start length).IsStructural := by
  cases hStructural with
  | invalidInstruction opcode position => exact .invalidInstruction opcode _
  | undecodableBlock kind position fault => exact .undecodableBlock kind _ fault

theorem due_behind (hWithin : WithinLimits evalMaxVersion limits program arguments version start)
    (hSteps : Path table program start steps program.length)
    (hLimits : Unexceeded table limits (program ++ suffix) arguments) {rejection : Rejection}
    (hStructural : rejection.IsStructural)
    (hDue : rejection.Due table evalMaxVersion limits (program.take start ++ suffix) arguments) :
    (rejection.behind start program.length).Due table evalMaxVersion limits (program ++ suffix)
      arguments := by
  have hHeadDecoded := Varint.decode_take_append hWithin.decoded suffix
  have hWhole := withinLimits_append hWithin hLimits
  cases hStructural with
  | invalidInstruction opcode position =>
      obtain ⟨_, _, parts, hPartWithin, hParts, hOpcode, hNone⟩ := hDue
      cases hHeadDecoded.symm.trans hPartWithin.decoded
      have hMoved := getElem?_eq_of_drop_eq
        (drop_behind hWithin.decoded suffix hParts.start_le_stop)
      exact ⟨version, start, _, hWhole, hSteps.behind hWithin.decoded hParts, hMoved.trans hOpcode,
        hNone⟩
  | undecodableBlock kind position fault =>
      obtain ⟨_, _, offset, parts, descriptor, hPartWithin, hParts, hPosition, hDescribed, hKind,
        hNone, hFault⟩ := hDue
      cases hHeadDecoded.symm.trans hPartWithin.decoded
      have hStart := hParts.start_le_stop
      have hMoved := drop_behind hWithin.decoded suffix hStart
      have hNext := drop_behind hWithin.decoded suffix (Nat.le_succ_of_le hStart)
      refine ⟨version, start, offset + program.length - start, _, descriptor, hWhole,
        hSteps.behind hWithin.decoded hParts, ?_,
        hDescribed.transfer (getElem?_eq_of_drop_eq hMoved), hKind, ?_, ?_⟩
      · omega
      · rw [hMoved]
        exact hNone
      · have hIndex : offset + program.length - start + 1 =
            offset + 1 + program.length - start := by
          have hLength := Varint.length_le_of_decode_eq hWithin.decoded
          omega
        rw [hIndex, hNext]
        exact hFault

theorem validate_behind (hTable : table.IsInteger)
    (hVersion : table.evalMaxVersion = .integer evalMaxVersion)
    (hWithin : WithinLimits evalMaxVersion limits program arguments version start)
    (hSteps : Segmentation table program start steps program.length) {costs : List Int}
    (hCosts : CostsOf steps costs) (hLimits : Unexceeded table limits (program ++ suffix) arguments)
    {parts : List Placed} {stop : Nat} {partCosts : List Int}
    (hParts : Segmentation table (program.take start ++ suffix) start parts stop)
    (hPartCosts : CostsOf parts partCosts) :
    validate table limits (program ++ suffix) arguments =
      .ok ⟨version, (program ++ suffix).length + (arguments.map List.length).sum,
        .integer (costs.sum + partCosts.sum), steps.length + parts.length⟩ := by
  have hWhole := hSteps.behind hWithin.decoded hParts
  have hWholeCosts := hCosts.append (hPartCosts.relocate start program.length)
  have hCheap := hLimits.cost version start _ _ _ (decode_append hWithin.decoded suffix) hWhole
    hWholeCosts
  rw [validate_eq_ok_iff, accepted_iff hTable hVersion]
  refine ⟨version, start, _, _, _, withinLimits_append hWithin hLimits, hWhole, hWholeCosts, hCheap,
    ?_⟩
  rw [List.sum_append, List.length_append, List.length_append, List.length_map]

/-- Behind the version alone no gate but the scan can fail. Its length is within the limit, and its
cost is, since more instructions cost at least as much. -/
theorem accepted_or_structural (hTable : table.IsInteger)
    (hVersion : table.evalMaxVersion = .integer evalMaxVersion)
    (hWithin : WithinLimits evalMaxVersion limits program arguments version start)
    (hSteps : Segmentation table program start steps program.length) {costs : List Int}
    (hCosts : CostsOf steps costs)
    (hLimits : Unexceeded table limits (program ++ suffix) arguments) :
    (∃ part, validate table limits (program.take start ++ suffix) arguments = .ok part) ∨
      ∃ rejection : Rejection, rejection.IsStructural ∧
        rejection.Due table evalMaxVersion limits (program.take start ++ suffix) arguments := by
  have hPart := withinLimits_head hWithin hLimits
  rcases exists_answer table limits (program.take start ++ suffix) arguments with
    ⟨part, hAccepted⟩ | ⟨rejection, hFailed⟩ | ⟨failure, hInterrupted⟩
  · exact .inl ⟨part, (validate_eq_ok_iff _ _ _ _ _).mpr hAccepted⟩
  · have hDue := hFailed.due hTable hVersion
    cases rejection with
    | malformedVersion => exact absurd hPart.decoded (hDue version start)
    | unsupportedVersion other maxVersion =>
        obtain ⟨⟨otherStart, hDecoded⟩, hNewer, _⟩ := hDue
        cases hPart.decoded.symm.trans hDecoded
        exact absurd hWithin.supported (Int.not_le.mpr hNewer)
    | tooLong length maxLength =>
        obtain ⟨_, hLength, hLong, _⟩ := hDue
        rw [hLength] at hLong
        exact absurd hPart.fits (Int.not_le.mpr hLong)
    | invalidInstruction opcode position =>
        exact .inr ⟨_, .invalidInstruction opcode position, hDue⟩
    | undecodableBlock kind position fault =>
        exact .inr ⟨_, .undecodableBlock kind position fault, hDue⟩
    | tooCostly cost maxCost =>
        obtain ⟨_, _, parts, stop, partCosts, hOther, hParts, hPartCosts, hCostly, _⟩ := hDue
        cases hPart.decoded.symm.trans hOther.decoded
        have hCheap := hLimits.cost version start _ _ _ (decode_append hWithin.decoded suffix)
          (hSteps.behind hWithin.decoded hParts)
          (hCosts.append (hPartCosts.relocate start program.length))
        have hNonneg := hCosts.sum_nonneg
        rw [List.sum_append] at hCheap
        omega
  · exact absurd hInterrupted (not_interrupted hTable limits arguments failure)

end

/-- An accepted program whose instructions end at its end, continued by more bytes. The longer
program is accepted exactly if these bytes behind the version alone are, and then costs and numbers
of instructions add up. If they are refused there for an instruction that cannot be stepped over,
the longer program is refused for the same one, further back by the length of the instructions in
front. -/
theorem validate_append_of_accepted {descriptors : List Descriptor}
    (hIntegers : ∀ descriptor ∈ descriptors, descriptor.IsInteger)
    (evalMaxVersion logicSigVersion : Int) (limits : Limits) (program suffix : List UInt8)
    (arguments : List (List UInt8)) (report : Report) (start : Nat) (steps : List Placed) :
    let table :=
      Table.ofDescriptors descriptors (.integer evalMaxVersion) (.integer logicSigVersion)
    let head := program.take start
    validate table limits program arguments = .ok report →
    Varint.decode program = .decoded report.version start →
    Segmentation table program start steps program.length →
    Unexceeded table limits (program ++ suffix) arguments →
    ((∃ whole, validate table limits (program ++ suffix) arguments = .ok whole) ↔
      ∃ part, validate table limits (head ++ suffix) arguments = .ok part) ∧
    (∀ whole part, validate table limits (program ++ suffix) arguments = .ok whole →
      validate table limits (head ++ suffix) arguments = .ok part →
      ∃ cost partCost : Int, report.cost = .integer cost ∧ part.cost = .integer partCost ∧
        whole.cost = .integer (cost + partCost) ∧
        whole.instructions = report.instructions + part.instructions) ∧
    (∀ opcode position, validate table limits (head ++ suffix) arguments =
        .error (.rejected (.invalidInstruction opcode position)) →
      RefusedFor table limits (program ++ suffix) arguments
        (.invalidInstruction opcode (position + program.length - start))) ∧
    ∀ kind position fault, validate table limits (head ++ suffix) arguments =
        .error (.rejected (.undecodableBlock kind position fault)) →
      RefusedFor table limits (program ++ suffix) arguments
        (.undecodableBlock kind (position + program.length - start) fault) := by
  intro table head hOk hDecoded hSteps hLimits
  have hTable : table.IsInteger := Table.isInteger_ofDescriptors hIntegers _ _
  rw [validate_eq_ok_iff, accepted_iff hTable rfl] at hOk
  obtain ⟨version, _, others, stop, costs, hWithin, hOthers, hCosts, _, hReport⟩ := hOk
  subst hReport
  cases hWithin.decoded.symm.trans hDecoded
  obtain ⟨hSame, _⟩ := hOthers.unique hSteps
  subst hSame
  -- What is due behind the version alone is due further back behind the program.
  have hRefused : ∀ rejection : Rejection, rejection.IsStructural →
      rejection.Due table evalMaxVersion limits (head ++ suffix) arguments →
      RefusedFor table limits (program ++ suffix) arguments
        (rejection.behind start program.length) := by
    intro rejection hStructural hDue
    exact (due_behind hWithin hSteps.path hLimits hStructural hDue).refusedFor hTable rfl
      (hStructural.behind start program.length)
  -- Accepted parts come with the sum of costs and of numbers of instructions.
  have hSums : ∀ part, validate table limits (head ++ suffix) arguments = .ok part →
      ∃ (length : Nat) (partCost : Int), part.cost = .integer partCost ∧
        validate table limits (program ++ suffix) arguments =
          .ok ⟨version, length, .integer (costs.sum + partCost),
            others.length + part.instructions⟩ := by
    intro part hPart
    rw [validate_eq_ok_iff, accepted_iff hTable rfl] at hPart
    obtain ⟨_, _, parts, stop, partCosts, hPartWithin, hParts, hPartCosts, _, hPartReport⟩ := hPart
    cases (withinLimits_head hWithin hLimits).decoded.symm.trans hPartWithin.decoded
    subst hPartReport
    exact ⟨_, partCosts.sum, rfl,
      validate_behind hTable rfl hWithin hSteps hCosts hLimits hParts hPartCosts⟩
  refine ⟨⟨?_, ?_⟩, ?_, ?_, ?_⟩
  · rintro ⟨whole, hWhole⟩
    rcases accepted_or_structural hTable rfl hWithin hSteps hCosts hLimits with
      hAccepted | ⟨rejection, hStructural, hDue⟩
    · exact hAccepted
    · have hAnswer := (hRefused rejection hStructural hDue).answer
      rw [hWhole] at hAnswer
      cases hAnswer
  · rintro ⟨part, hPart⟩
    obtain ⟨_, _, _, hWhole⟩ := hSums part hPart
    exact ⟨_, hWhole⟩
  · intro whole part hWhole hPart
    obtain ⟨length, partCost, hCost, hAnswer⟩ := hSums part hPart
    rw [hAnswer] at hWhole
    cases hWhole
    exact ⟨costs.sum, partCost, rfl, hCost, rfl, rfl⟩
  · intro opcode position hError
    exact hRefused _ (.invalidInstruction opcode position)
      (due_of_validate_eq_error hTable rfl hError)
  · intro kind position fault hError
    exact hRefused _ (.undecodableBlock kind position fault)
      (due_of_validate_eq_error hTable rfl hError)

/-- A version and a branch with its operands. -/
def wholeBranch : List UInt8 := [0x01, 0x42, 0x00, 0x00]

/-- An integer block that lacks one of its two entries. -/
def brokenBlock : List UInt8 := [0x20, 0x02, 0x05]

theorem wholeBranch_segmentation :
    ∃ steps, Segmentation (Table.ofDescriptors blockAndBranch (.integer 1) (.integer 1)) wholeBranch
      1 steps wholeBranch.length :=
  ⟨_, .cons ⟨⟨0x42, rfl, rfl⟩, .fixed 3 rfl rfl⟩ (.nil 4), Nat.le_refl 4⟩

theorem wholeBranch_brokenBlock_unexceeded :
    Unexceeded (Table.ofDescriptors blockAndBranch (.integer 1) (.integer 1)) {}
      (wholeBranch ++ brokenBlock) [] := by
  refine ⟨by decide, ?_⟩
  intro version start steps stop costs hDecoded hSegmentation hCosts
  cases hDecoded
  -- The scan fails at the block, so there are no instructions that fill the program.
  have hTable := Table.isInteger_ofDescriptors blockAndBranch_isInteger (.integer 1) (.integer 1)
  have hCompleted := (completed_iff hTable).mpr ⟨steps, stop, costs, hSegmentation, hCosts, rfl⟩
  cases (scanFrom_start_eq_iff _ _ _ _).mpr hCompleted

theorem validate_brokenBlock_behind_wholeBranch :
    (∀ descriptor ∈ blockAndBranch, descriptor.IsInteger) ∧
      Unexceeded (Table.ofDescriptors blockAndBranch (.integer 1) (.integer 1)) {}
        (wholeBranch ++ brokenBlock) [] ∧
      validate (Table.ofDescriptors blockAndBranch (.integer 1) (.integer 1)) {}
        ([0x01] ++ brokenBlock) [] =
          .error (.rejected (.undecodableBlock .integers 1 ⟨some 1, .pastEnd⟩)) ∧
      RefusedFor (Table.ofDescriptors blockAndBranch (.integer 1) (.integer 1)) {}
        (wholeBranch ++ brokenBlock) [] (.undecodableBlock .integers 4 ⟨some 1, .pastEnd⟩) := by
  obtain ⟨steps, hSteps⟩ := wholeBranch_segmentation
  have hPart : validate (Table.ofDescriptors blockAndBranch (.integer 1) (.integer 1)) {}
      ([0x01] ++ brokenBlock) [] =
        .error (.rejected (.undecodableBlock .integers 1 ⟨some 1, .pastEnd⟩)) := by decide +kernel
  exact ⟨blockAndBranch_isInteger, wholeBranch_brokenBlock_unexceeded, hPart,
    (validate_append_of_accepted blockAndBranch_isInteger 1 1 {} wholeBranch brokenBlock []
      ⟨1, 4, .integer 2, 1⟩ 1 steps rfl rfl hSteps wholeBranch_brokenBlock_unexceeded).2.2.2
      .integers 1 ⟨some 1, .pastEnd⟩ hPart⟩

end LogicSignature.Program
