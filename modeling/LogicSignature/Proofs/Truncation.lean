import LogicSignature.Proofs.PathLocality
import LogicSignature.Proofs.RefusalWording

/-
Truncated programs.

What is left of an accepted program after a cut is scanned as before up to the cut. A cut within the
version leaves no version, and a cut within a constant block leaves an instruction that cannot be
stepped over. Any other cut leaves an accepted program: the instructions in front of the cut stay,
and one of fixed size that lost operands counts as if it were whole.
-/

namespace LogicSignature

namespace Varint

theorem decode_take_of_lt {bytes : List UInt8} {number length cut : Nat}
    (hDecode : decode bytes = .decoded number length) (hCut : cut < length) :
    decode (bytes.take cut) = .exhausted := by
  obtain ⟨encoding, rest, hBytes, hSpells, hLength⟩ := (decode_eq_decoded_iff _ _ _).mp hDecode
  cases hSpells with
  | intro run last hRun hLast hRunLength hWidth =>
      rw [List.length_append, List.length_singleton] at hLength
      have hTake : bytes.take cut = run.take cut := by
        rw [hBytes, List.append_assoc, List.take_append_of_le_length (by omega)]
      rw [hTake, decode_eq_exhausted_iff, List.length_take]
      refine ⟨by omega, ?_⟩
      intro byte hByte
      exact hRun byte (List.mem_of_mem_take hByte)

theorem decode_take_of_le {bytes : List UInt8} {number length cut : Nat}
    (hDecode : decode bytes = .decoded number length) (hCut : length ≤ cut) :
    decode (bytes.take cut) = .decoded number length := by
  have hVersion : (bytes.take cut).take length = bytes.take length := by
    rw [List.take_take, Nat.min_eq_left hCut]
  rw [← List.take_append_drop length (bytes.take cut), hVersion]
  exact decode_take_append hDecode _

end Varint

namespace Program

open Opcode (Descriptor Table)

/-- A cut lies strictly inside a constant block of a row of instructions. -/
def CutsBlock (table : Table) (program : List UInt8) (steps : List Placed) (cut : Nat)
    (kind : BlockKind) (position : Nat) : Prop :=
  ∃ descriptor size, ⟨position, descriptor⟩ ∈ steps ∧ descriptor.block = some kind ∧
    InstructionAt table program position descriptor size ∧ position < cut ∧ cut < position + size

section

variable {table : Table} {program : List UInt8}

/-! ### Instructions in front of a cut -/

theorem Path.start_le_of_mem {start stop : Nat} {steps : List Placed} {placed : Placed}
    (hPath : Path table program start steps stop) (hPlaced : placed ∈ steps) :
    start ≤ placed.position := by
  obtain ⟨before, after, size, _, hBefore, _, _⟩ := hPath.split_of_mem hPlaced
  exact hBefore.start_le_stop

/-- If a cut is not inside a block, the instructions in front of it reach up to it. -/
theorem Path.take_uncut {start stop cut : Nat} {steps : List Placed}
    (hPath : Path table program start steps stop) (hCut : cut ≤ stop)
    (hUncut : ∀ kind position, ¬ CutsBlock table program steps cut kind position) :
    ∃ reached, cut ≤ reached ∧
      Path table (program.take cut) start (steps.filter (fun placed => placed.position < cut))
        reached := by
  induction hPath with
  | nil position => exact ⟨position, hCut, .nil position⟩
  | @cons position size stop descriptor rest hInstruction hRest ih =>
      by_cases hInside : position < cut
      · have hWhole : descriptor.block ≠ none → position + size ≤ cut := by
          intro hBlock
          obtain ⟨kind, hKind⟩ := Option.ne_none_iff_exists.mp hBlock
          by_contra hBeyond
          exact hUncut kind position ⟨descriptor, size, List.mem_cons_self, hKind.symm,
            hInstruction, hInside, by omega⟩
        have hUncutRest : ∀ kind later, ¬ CutsBlock table program rest cut kind later := by
          rintro kind later ⟨following, length, hMem, hCuts⟩
          exact hUncut kind later ⟨following, length, List.mem_cons_of_mem _ hMem, hCuts⟩
        obtain ⟨reached, hReached, hKept⟩ := ih hCut hUncutRest
        rw [List.filter_cons_of_pos (by simpa using hInside)]
        exact ⟨reached, hReached, .cons (hInstruction.take hInside hWhole) hKept⟩
      · -- The cut lies in front of this instruction, so nothing from here on is kept.
        have hWholePath : Path table program position (⟨position, descriptor⟩ :: rest) stop :=
          .cons hInstruction hRest
        have hNone : (⟨position, descriptor⟩ :: rest).filter (fun placed => placed.position < cut) =
            [] := by
          rw [List.filter_eq_nil_iff]
          intro placed hPlaced
          have hBehind := hWholePath.start_le_of_mem hPlaced
          simp only [decide_eq_true_eq]
          omega
        rw [hNone]
        exact ⟨position, Nat.not_lt.mp hInside, .nil position⟩

/-- What is left of a block that was cut is no block. A block that stood there would stand in the
whole program as well, where the instruction is longer. -/
theorem not_blockForm_of_cut {position size cut : Nat} {descriptor : Descriptor} {kind : BlockKind}
    (hInstruction : InstructionAt table program position descriptor size)
    (hKind : descriptor.block = some kind) (hInside : position < cut)
    (hBeyond : cut < position + size) (block rest : List UInt8)
    (hBytes : (program.take cut).drop position = block ++ rest) :
    ¬ ConstBlock.BlockForm kind block := by
  intro hForm
  have hDescribed : DescribedAt table (program.take cut) position descriptor :=
    hInstruction.described.transfer (List.getElem?_take_of_lt hInside)
  have hShort : InstructionAt table (program.take cut) position descriptor block.length :=
    ⟨hDescribed, .block kind block rest hKind hBytes hForm⟩
  have hWhole := hShort.append (program.drop cut)
  rw [List.take_append_drop] at hWhole
  have hSame : block.length = size := hWhole.occupies.unique hInstruction.occupies
  have hLength := congrArg List.length hBytes
  rw [List.length_drop, List.length_take, List.length_append] at hLength
  omega

theorem exists_measure_eq_error {position : Nat} {descriptor : Descriptor} {kind : BlockKind}
    (hDescribed : DescribedAt table program position descriptor)
    (hNone : ∀ block rest, program.drop position = block ++ rest →
      ¬ ConstBlock.BlockForm kind block) :
    ∃ fault, ConstBlock.measure kind (program.drop (position + 1)) = .error fault := by
  obtain ⟨opcode, hOpcode, _⟩ := hDescribed
  cases hMeasure : ConstBlock.measure kind (program.drop (position + 1)) with
  | error fault => exact ⟨fault, rfl⟩
  | ok size =>
      obtain ⟨block, rest, hBytes, hForm, _⟩ :=
        (ConstBlock.measure_eq_ok_iff_blockForm kind opcode _ size).mp hMeasure
      rw [← drop_eq_cons hOpcode] at hBytes
      exact absurd hForm (hNone block rest hBytes)

theorem WithinLimits.take {evalMaxVersion : Int} {limits : Limits} {arguments : List (List UInt8)}
    {version start cut : Nat}
    (hWithin : WithinLimits evalMaxVersion limits program arguments version start)
    (hCut : start ≤ cut) :
    WithinLimits evalMaxVersion limits (program.take cut) arguments version start := by
  refine ⟨Varint.decode_take_of_le hWithin.decoded hCut, hWithin.supported, ?_⟩
  have hFits := hWithin.fits
  rw [List.length_take]
  omega

theorem Path.position_le_last {start stop : Nat} {steps : List Placed} {placed last : Placed}
    (hPath : Path table program start steps stop) (hLast : steps.getLast? = some last)
    (hPlaced : placed ∈ steps) : placed.position ≤ last.position := by
  obtain ⟨others, hSteps⟩ := List.getLast?_eq_some_iff.mp hLast
  obtain ⟨_, hIncreasing, _⟩ := hPath.positions
  rw [hSteps, List.map_append, List.pairwise_append] at hIncreasing
  have hBelow := (List.pairwise_append.mp hIncreasing.1).2.2
  rw [hSteps, List.mem_append, List.mem_singleton] at hPlaced
  rcases hPlaced with hOther | hSame
  · exact Nat.le_of_lt (hBelow _ (List.mem_map_of_mem hOther) _ List.mem_cons_self)
  · rw [hSame]

/-- A cut behind the opcode of a last instruction of fixed size is not inside a block. -/
theorem Path.not_cutsBlock_of_last {start stop cut : Nat} {steps : List Placed} {last : Placed}
    (hPath : Path table program start steps stop) (hLast : steps.getLast? = some last)
    (hFixed : last.descriptor.block = none) (hCut : last.position < cut) (kind : BlockKind)
    (position : Nat) : ¬ CutsBlock table program steps cut kind position := by
  rintro ⟨descriptor, size, hMem, hKind, hInstruction, hInside, hBeyond⟩
  obtain ⟨before, _, _, _, hBefore, _, _⟩ := hPath.split_of_mem hMem
  obtain ⟨beforeLast, _, _, _, hBeforeLast, hLastAt, _⟩ :=
    hPath.split_of_mem (List.mem_of_getLast? hLast)
  have hNotBehind : position ≤ last.position := hPath.position_le_last hLast hMem
  rcases hBefore.not_inside hInstruction hBeforeLast with hNotBefore | hBehind
  · have hSame : last.position = position := Nat.le_antisymm hNotBefore hNotBehind
    rw [← hSame] at hInstruction
    have hDescriptor := hInstruction.described.unique hLastAt.described
    rw [hDescriptor, hFixed] at hKind
    cases hKind
  · simp only at hBehind
    omega

/-! ### The answer for what is left -/

variable {evalMaxVersion : Int} {limits : Limits} {arguments : List (List UInt8)}
  {version start stop cut : Nat} {steps : List Placed}

theorem exists_due_of_cutsBlock
    (hWithin : WithinLimits evalMaxVersion limits program arguments version start)
    (hPath : Path table program start steps stop) {kind : BlockKind} {position : Nat}
    (hCuts : CutsBlock table program steps cut kind position) :
    ∃ fault, (Rejection.undecodableBlock kind position fault).Due table evalMaxVersion limits
      (program.take cut) arguments := by
  obtain ⟨descriptor, size, hMem, hKind, hInstruction, hInside, hBeyond⟩ := hCuts
  obtain ⟨before, _, _, _, hBefore, _, _⟩ := hPath.split_of_mem hMem
  have hStart : start ≤ position := hBefore.start_le_stop
  have hDescribed : DescribedAt table (program.take cut) position descriptor :=
    hInstruction.described.transfer (List.getElem?_take_of_lt hInside)
  have hNone := not_blockForm_of_cut hInstruction hKind hInside hBeyond
  obtain ⟨fault, hFault⟩ := exists_measure_eq_error hDescribed hNone
  exact ⟨fault, version, start, position, before, descriptor, hWithin.take (by omega),
    hBefore.take (Nat.le_of_lt hInside), rfl, hDescribed, hKind, hNone, hFault⟩

theorem accepted_take_of_uncut (hTable : table.IsInteger)
    (hVersion : table.evalMaxVersion = .integer evalMaxVersion)
    (hWithin : WithinLimits evalMaxVersion limits program arguments version start)
    (hSegmentation : Segmentation table program start steps stop) {costs : List Int}
    (hCosts : CostsOf steps costs) (hCheap : costs.sum ≤ limits.maxCost) (hStart : start ≤ cut)
    (hCut : cut ≤ program.length)
    (hUncut : ∀ kind position, ¬ CutsBlock table program steps cut kind position) :
    ∃ kept, CostsOf (steps.filter (fun placed => placed.position < cut)) kept ∧
      validate table limits (program.take cut) arguments =
        .ok ⟨version, cut + (arguments.map List.length).sum, .integer kept.sum,
          (steps.filter (fun placed => placed.position < cut)).length⟩ := by
  obtain ⟨kept, hKept, hSum⟩ := hCosts.filter (fun placed => placed.position < cut)
  have hEnd := hSegmentation.ended
  obtain ⟨reached, hReached, hPath⟩ := hSegmentation.path.take_uncut (by omega) hUncut
  have hLength : (program.take cut).length = cut := List.length_take_of_le hCut
  refine ⟨kept, hKept, ?_⟩
  rw [validate_eq_ok_iff, accepted_iff hTable hVersion]
  refine ⟨version, start, _, reached, kept, hWithin.take hStart, ⟨hPath, ?_⟩, hKept, ?_, ?_⟩
  · rw [hLength]
    exact hReached
  · omega
  · rw [hLength]

end

/-- An accepted program, cut anywhere. Within the version there is no version left, and within a
block that block cannot be decoded. Otherwise the program is accepted with the instructions that
start in front of the cut, so a last instruction of fixed size counts even if operands are cut
off. -/
theorem validate_take_of_accepted {descriptors : List Descriptor}
    (hIntegers : ∀ descriptor ∈ descriptors, descriptor.IsInteger)
    (evalMaxVersion logicSigVersion : Int) (limits : Limits) (program : List UInt8)
    (arguments : List (List UInt8)) (report : Report) (cut : Nat) (hCut : cut ≤ program.length) :
    let table :=
      Table.ofDescriptors descriptors (.integer evalMaxVersion) (.integer logicSigVersion)
    validate table limits program arguments = .ok report →
    ∃ start steps stop,
      Varint.decode program = .decoded report.version start ∧
      Segmentation table program start steps stop ∧
      (cut < start → validate table limits (program.take cut) arguments =
        .error (.rejected .malformedVersion)) ∧
      (∀ kind position, CutsBlock table program steps cut kind position →
        ∃ fault, RefusedFor table limits (program.take cut) arguments
          (.undecodableBlock kind position fault)) ∧
      (start ≤ cut → (∀ kind position, ¬ CutsBlock table program steps cut kind position) →
        ∃ costs, CostsOf (steps.filter (fun placed => placed.position < cut)) costs ∧
          validate table limits (program.take cut) arguments =
            .ok ⟨report.version, report.length - (program.length - cut), .integer costs.sum,
              (steps.filter (fun placed => placed.position < cut)).length⟩) ∧
      ∀ last, steps.getLast? = some last → last.descriptor.block = none → last.position < cut →
        validate table limits (program.take cut) arguments =
          .ok { report with length := report.length - (program.length - cut) } := by
  intro table hOk
  have hTable : table.IsInteger := Table.isInteger_ofDescriptors hIntegers _ _
  rw [validate_eq_ok_iff, accepted_iff hTable rfl] at hOk
  obtain ⟨version, start, steps, stop, costs, hWithin, hSegmentation, hCosts, hCheap, hReport⟩ :=
    hOk
  subst hReport
  have hLength : program.length + (arguments.map List.length).sum - (program.length - cut) =
      cut + (arguments.map List.length).sum := by omega
  refine ⟨start, steps, stop, hWithin.decoded, hSegmentation, ?_, ?_, ?_, ?_⟩
  · intro hShort
    have hDecode := Varint.decode_take_of_lt hWithin.decoded hShort
    have hDue : Rejection.malformedVersion.Due table evalMaxVersion limits (program.take cut)
        arguments := by
      intro other length
      rw [hDecode]
      exact Varint.Outcome.noConfusion
    exact (validate_eq_error_iff table limits _ arguments _).mpr
      (.inl ⟨_, hDue.firstFailed hTable rfl, rfl⟩)
  · intro kind position hCuts
    obtain ⟨fault, hDue⟩ := exists_due_of_cutsBlock hWithin hSegmentation.path hCuts
    exact ⟨fault, hDue.refusedFor hTable rfl (.undecodableBlock kind position fault)⟩
  · intro hStart hUncut
    rw [hLength]
    exact accepted_take_of_uncut hTable rfl hWithin hSegmentation hCosts hCheap hStart hCut hUncut
  · intro last hLast hFixed hInside
    have hUncut := hSegmentation.path.not_cutsBlock_of_last hLast hFixed hInside
    have hStart : start ≤ last.position :=
      hSegmentation.path.start_le_of_mem (List.mem_of_getLast? hLast)
    have hAll : steps.filter (fun placed => placed.position < cut) = steps := by
      rw [List.filter_eq_self]
      intro placed hPlaced
      have hBefore := hSegmentation.path.position_le_last hLast hPlaced
      simp only [decide_eq_true_eq]
      omega
    obtain ⟨kept, hKept, hAnswer⟩ := accepted_take_of_uncut hTable rfl hWithin hSegmentation hCosts
      hCheap (by omega) hCut hUncut
    rw [hAll] at hKept hAnswer
    rw [hAnswer, hKept.unique hCosts, hLength]

/-- A version, an integer block with two entries, and a branch whose last operand is missing. -/
def blockThenBranch : List UInt8 := [0x01, 0x20, 0x02, 0x05, 0x80, 0x01, 0x42, 0x00]

theorem blockThenBranch_starts_with_block :
    ∃ descriptor, descriptor.block = some .integers ∧
      InstructionAt (Table.ofDescriptors blockAndBranch (.integer 1) (.integer 1)) blockThenBranch 1
        descriptor 5 := by
  obtain ⟨block, rest, hBytes, hForm, hSize⟩ :=
    (ConstBlock.measure_eq_ok_iff_blockForm .integers 0x20 (blockThenBranch.drop 2) 5).mp rfl
  rw [hSize]
  exact ⟨_, rfl, ⟨0x20, rfl, rfl⟩, .block .integers block rest rfl hBytes hForm⟩

theorem validate_take_inside_block :
    (∀ descriptor ∈ blockAndBranch, descriptor.IsInteger) ∧ 4 ≤ blockThenBranch.length ∧
      validate (Table.ofDescriptors blockAndBranch (.integer 1) (.integer 1)) {} blockThenBranch
        [] = .ok ⟨1, 8, .integer 3, 2⟩ ∧
      ∃ fault, RefusedFor (Table.ofDescriptors blockAndBranch (.integer 1) (.integer 1)) {}
        (blockThenBranch.take 4) [] (.undecodableBlock .integers 1 fault) := by
  refine ⟨blockAndBranch_isInteger, by decide, rfl, ?_⟩
  obtain ⟨start, steps, stop, hDecoded, hSegmentation, _, hBlock, _, _⟩ :=
    validate_take_of_accepted blockAndBranch_isInteger 1 1 {} blockThenBranch []
      ⟨1, 8, .integer 3, 2⟩ 4 (by decide) rfl
  obtain ⟨descriptor, hKind, hInstruction⟩ := blockThenBranch_starts_with_block
  cases hDecoded
  apply hBlock .integers 1
  cases hSegmentation.path with
  | nil => exact absurd hSegmentation.ended (by decide)
  | cons hFirst hRest =>
      have hSame := hFirst.described.unique hInstruction.described
      subst hSame
      exact ⟨_, 5, List.mem_cons_self, hKind, hInstruction, by decide, by decide⟩

end Program

end LogicSignature
