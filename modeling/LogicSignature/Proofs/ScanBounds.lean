import LogicSignature.Proofs.BlockExtent
import LogicSignature.Proofs.IntegerTables

/-
How far a scan and a walk over the entries of a block can go.

Every instruction has a byte and every constant block has two, so a scan passes no more instructions
than there are bytes behind the version. The walk over a block is driven by the count that the block
announces, but every entry has a byte too: a count that is too large is found out at the end of the
program, after no more entries than there are bytes behind the opcode.
-/

namespace LogicSignature.ConstBlock

/-! ### Counting the entries that are looked at -/

/-- The walk over entries, with the number of entries that it looks at. -/
def countedEntries (kind : BlockKind) : Nat → Nat → Nat → List UInt8 → Except Fault Nat × Nat
  | 0, _, size, _ => (.ok size, 0)
  | count + 1, index, size, rest =>
    if rest.isEmpty then (.error ⟨some index, .pastEnd⟩, 1)
    else
      match Varint.decode rest with
      | .exhausted => (.error ⟨some index, .truncated size⟩, 1)
      | .malformed _ => (.error ⟨some index, .malformed size⟩, 1)
      | .decoded number length =>
        match kind with
        | .integers =>
          let later := countedEntries kind count (index + 1) (size + length) (rest.drop length)
          (later.1, later.2 + 1)
        | .bytes =>
          if (rest.drop length).length < number then (.error ⟨some index, .longConstant number⟩, 1)
          else
            let later := countedEntries kind count (index + 1) (size + length + number)
              (rest.drop (length + number))
            (later.1, later.2 + 1)

/-- Measuring, with the number of entries that are looked at. -/
def countedMeasure (kind : BlockKind) (body : List UInt8) : Except Fault Nat × Nat :=
  match Varint.decode body with
  | .exhausted => (.error ⟨none, .truncated 1⟩, 0)
  | .malformed _ => (.error ⟨none, .malformed 1⟩, 0)
  | .decoded count length => countedEntries kind count 0 (1 + length) (body.drop length)

theorem countedEntries_result (kind : BlockKind) (count index size : Nat) (rest : List UInt8) :
    (countedEntries kind count index size rest).1 = entries kind count index size rest := by
  fun_induction countedEntries kind count index size rest <;> simp_all [entries]

theorem countedMeasure_result (kind : BlockKind) (body : List UInt8) :
    (countedMeasure kind body).1 = measure kind body := by
  rw [countedMeasure, measure]
  cases Varint.decode body with
  | exhausted => rfl
  | malformed examined => rfl
  | decoded count length => exact countedEntries_result kind count 0 (1 + length) _

/-- How a counted walk over bytes ends: with all entries, each of which has a byte, or with the
first one that does not stand there. -/
inductive Looked (count index size room : Nat) : Except Fault Nat × Nat → Prop
  | all (final : Nat) (hLeast : size + count ≤ final) (hMost : final ≤ size + room) :
      Looked count index size room (.ok final, count)
  | upTo (passed : Nat) (reason : Reason) (hFewer : passed < count) (hRoom : passed ≤ room) :
      Looked count index size room (.error ⟨some (index + passed), reason⟩, passed + 1)

/-- An entry in front of a walk is one more that is looked at. -/
theorem Looked.cons {count index size room entry : Nat} {result : Except Fault Nat × Nat}
    (hLater : Looked count (index + 1) (size + entry) (room - entry) result) (hPos : 0 < entry)
    (hRoom : entry ≤ room) : Looked (count + 1) index size room (result.1, result.2 + 1) := by
  cases hLater with
  | all final hLeast hMost => exact .all final (by omega) (by omega)
  | upTo passed reason hFewer hInside =>
      have hLooked : Looked (count + 1) index size room
          (.error ⟨some (index + (passed + 1)), reason⟩, passed + 1 + 1) :=
        .upTo (passed + 1) reason (by omega) (by omega)
      rwa [← Nat.add_assoc, Nat.add_right_comm] at hLooked

theorem looked_countedEntries (kind : BlockKind) (count index size : Nat) (rest : List UInt8) :
    Looked count index size rest.length (countedEntries kind count index size rest) := by
  induction count generalizing index size rest with
  | zero => exact .all size (Nat.le_refl _) (Nat.le_add_right _ _)
  | succ count ih =>
      -- An entry that does not stand there is the first one.
      have hFirst : ∀ reason, Looked (count + 1) index size rest.length
          (.error ⟨some index, reason⟩, 1) :=
        fun reason => .upTo 0 reason (Nat.succ_pos count) (Nat.zero_le _)
      rw [countedEntries]
      split
      · exact hFirst .pastEnd
      · cases hDecode : Varint.decode rest with
        | exhausted => exact hFirst (.truncated size)
        | malformed examined => exact hFirst (.malformed size)
        | decoded number length =>
            have hPos := Varint.length_pos_of_decode_eq hDecode
            have hInside := Varint.length_le_of_decode_eq hDecode
            cases kind with
            | integers =>
                have hLater := ih (index + 1) (size + length) (rest.drop length)
                rw [List.length_drop] at hLater
                exact hLater.cons hPos hInside
            | bytes =>
                simp only
                split
                · exact hFirst (.longConstant number)
                · rename_i hRoom
                  have hLater :=
                    ih (index + 1) (size + length + number) (rest.drop (length + number))
                  rw [List.length_drop, Nat.add_assoc] at hLater
                  rw [List.length_drop] at hRoom
                  rw [Nat.add_assoc]
                  exact hLater.cons (by omega) (by omega)

end LogicSignature.ConstBlock

namespace LogicSignature.Program

open Opcode (Descriptor Table)

/-- The number of entries that are looked at to find the size of a block at a position. -/
def examined (kind : BlockKind) (program : List UInt8) (position : Nat) : Nat :=
  (ConstBlock.countedMeasure kind (program.drop (position + 1))).2

/-! ### One instruction, one block -/

theorem Occupies.two_le_of_block {descriptor : Descriptor} {bytes : List UInt8} {size : Nat}
    (hOccupies : Occupies descriptor bytes size) (hBlock : descriptor.block ≠ none) :
    2 ≤ size := by
  cases hOccupies with
  | fixed _ hFixed => exact absurd hFixed hBlock
  | block kind block rest _ hBytes hForm =>
      cases hForm with
      | intro opcode body hBody =>
          have hPos := hBody.length_pos
          rw [List.length_cons]
          omega

/-- At a position of a program the scan with integers steps over an instruction, to a later
position, or rejects what stands there. -/
theorem steps_or_rejects {table : Table} (hTable : table.IsInteger) {program : List UInt8}
    {position : Nat} (hInside : position < program.length) (cost : Int) (count : Nat) :
    (∃ rejection,
      Halts table program position ⟨.integer cost, count⟩ (.error (.rejected rejection))) ∨
    ∃ descriptor size total, InstructionAt table program position descriptor size ∧
      scanFrom table program position ⟨.integer cost, count⟩ =
        scanFrom table program (position + size) ⟨.integer total, count + 1⟩ := by
  have hAdd : ∀ {descriptor}, DescribedAt table program position descriptor →
      ∃ total : Int, Tally.add? ⟨.integer cost, count⟩ descriptor =
        some ⟨.integer total, count + 1⟩ := by
    intro descriptor hDescribed
    obtain ⟨price, _, hPrice, _⟩ := (hDescribed.isInteger hTable).exists_numbers
    exact ⟨cost + price, by rw [Tally.add?, hPrice, Quantity.add?_integer, Option.map_some]⟩
  rcases halts_or_steps table program position ⟨.integer cost, count⟩ with
    ⟨outcome, hHalts⟩ | ⟨descriptor, size, next, hInstruction, hCost⟩
  · left
    cases hHalts with
    | finished hEnd => omega
    | invalidInstruction opcode hOpcode hNone => exact ⟨_, .invalidInstruction opcode hOpcode hNone⟩
    | costOverflow descriptor hDescribed hCost =>
        obtain ⟨total, hTotal⟩ := hAdd hDescribed
        rw [hTotal] at hCost
        cases hCost
    | undecodableBlock descriptor next kind fault hDescribed hCost hBlock hNone hFault =>
        exact ⟨_, .undecodableBlock descriptor next kind fault hDescribed hCost hBlock hNone hFault⟩
    | realPosition descriptor next size hDescribed hCost hBlock hSize hReal =>
        obtain ⟨_, number, _, hNumber⟩ := (hDescribed.isInteger hTable).exists_numbers
        rw [hNumber] at hSize
        cases hSize
    | realEnd descriptor next size hDescribed hCost hBlock hSize hReal =>
        obtain ⟨_, number, _, hNumber⟩ := (hDescribed.isInteger hTable).exists_numbers
        rw [hNumber] at hSize
        cases hSize
  · right
    obtain ⟨total, hTotal⟩ := hAdd hInstruction.described
    exact ⟨descriptor, size, total, hInstruction, hInstruction.scanFrom_eq hTotal⟩

/-- What stands behind the count of a block bounds the walk, and the result tells how many entries
were looked at. -/
theorem examined_bounds (kind : BlockKind) {program : List UInt8} {position count length : Nat}
    (hCount : Varint.decode (program.drop (position + 1)) = .decoded count length) :
    examined kind program position ≤ program.length - position - 1 ∧
      (∀ size, blockSizeAt kind program position = .ok size →
        examined kind program position = count ∧ count + 2 ≤ size) ∧
      ∀ index reason, blockSizeAt kind program position =
          .error (.program (.rejected (.undecodableBlock kind position ⟨some index, reason⟩))) →
        examined kind program position = index + 1 ∧ position + index + 2 ≤ program.length := by
  have hPos := Varint.length_pos_of_decode_eq hCount
  have hInside := Varint.length_le_of_decode_eq hCount
  rw [List.length_drop] at hInside
  have hResult := ConstBlock.countedMeasure_result kind (program.drop (position + 1))
  have hLooked := ConstBlock.looked_countedEntries kind count 0 (1 + length)
    ((program.drop (position + 1)).drop length)
  have hCounted : ConstBlock.countedMeasure kind (program.drop (position + 1)) =
      ConstBlock.countedEntries kind count 0 (1 + length)
        ((program.drop (position + 1)).drop length) := by
    rw [ConstBlock.countedMeasure, hCount]
  rw [List.length_drop, List.length_drop, ← hCounted] at hLooked
  rw [examined]
  generalize ConstBlock.countedMeasure kind (program.drop (position + 1)) = counted
    at hLooked hResult
  cases hLooked with
  | all final hLeast hMost =>
      have hSize := blockSizeAt_of_ok hResult.symm
      refine ⟨by simp only; omega, ?_, ?_⟩
      · intro size hOk
        rw [hSize] at hOk
        cases hOk
        exact ⟨rfl, by omega⟩
      · intro index reason hError
        rw [hSize] at hError
        cases hError
  | upTo passed cause hFewer hRoom =>
      have hFault := blockSizeAt_of_error hResult.symm
      rw [Nat.zero_add] at hFault
      refine ⟨by simp only; omega, ?_, ?_⟩
      · intro size hOk
        rw [hFault] at hOk
        cases hOk
      · intro index reason hError
        rw [hFault, Failure.worded] at hError
        split at hError
        · cases hError
          exact ⟨rfl, by omega⟩
        · cases hError

/-! ### A whole scan -/

/-- Every instruction of a path has a byte of its own. -/
theorem Path.length_le {table : Table} {program : List UInt8} {start stop : Nat}
    {steps : List Placed} (hPath : Path table program start steps stop) :
    steps.length ≤ program.length - start := by
  induction hPath with
  | nil position => exact Nat.zero_le _
  | cons hInstruction hRest ih =>
      have hInside := hInstruction.described.lt_length
      have hPos := hInstruction.occupies.pos
      rw [List.length_cons]
      omega

/-- Wherever a scan is, it rejects what stands there or steps over an instruction, by at least one
byte, and by two if it is a block. So it passes no more instructions than there are bytes, and an
accepted program has no more than stand behind its version. Once the count of a block is known, no
more entries are looked at than there are bytes behind the opcode, whatever the count: all of them,
two fewer than the size at most, or those up to the one that is reported. -/
theorem scan_and_walk_bounded {descriptors : List Descriptor}
    (hIntegers : ∀ descriptor ∈ descriptors, descriptor.IsInteger)
    (evalMaxVersion logicSigVersion : Int) (program : List UInt8) :
    let table :=
      Table.ofDescriptors descriptors (.integer evalMaxVersion) (.integer logicSigVersion)
    (∀ position cost count, position < program.length →
      (∃ rejection,
        Halts table program position ⟨.integer cost, count⟩ (.error (.rejected rejection))) ∨
      ∃ descriptor size total, InstructionAt table program position descriptor size ∧
        1 ≤ size ∧ (descriptor.block ≠ none → 2 ≤ size) ∧
        scanFrom table program position ⟨.integer cost, count⟩ =
          scanFrom table program (position + size) ⟨.integer total, count + 1⟩) ∧
    (∀ start steps stop, Path table program start steps stop →
      steps.length ≤ program.length - start) ∧
    (∀ limits arguments report, validate table limits program arguments = .ok report →
      ∃ version start, Varint.decode program = .decoded version start ∧
        start + report.instructions ≤ program.length) ∧
    ∀ kind position count length,
      Varint.decode (program.drop (position + 1)) = .decoded count length →
      examined kind program position ≤ program.length - position - 1 ∧
      (∀ size, blockSizeAt kind program position = .ok size →
        examined kind program position = count ∧ count + 2 ≤ size) ∧
      ∀ index reason, blockSizeAt kind program position =
          .error (.program (.rejected (.undecodableBlock kind position ⟨some index, reason⟩))) →
        examined kind program position = index + 1 ∧ position + index + 2 ≤ program.length := by
  intro table
  have hTable : table.IsInteger := Table.isInteger_ofDescriptors hIntegers _ _
  refine ⟨?_, fun start steps stop hPath => hPath.length_le, ?_, ?_⟩
  · intro position cost count hInside
    rcases steps_or_rejects hTable hInside cost count with
      hRejected | ⟨descriptor, size, total, hInstruction, hScan⟩
    · exact .inl hRejected
    · exact .inr ⟨descriptor, size, total, hInstruction, hInstruction.occupies.pos,
        hInstruction.occupies.two_le_of_block, hScan⟩
  · intro limits arguments report hReport
    rw [validate_eq_ok_iff, accepted_iff hTable rfl] at hReport
    obtain ⟨version, start, steps, stop, costs, hWithin, hSegmentation, _, _, rfl⟩ := hReport
    have hLength := hSegmentation.path.length_le
    have hStart := Varint.length_le_of_decode_eq hWithin.decoded
    exact ⟨version, start, hWithin.decoded, by simp only; omega⟩
  · intro kind position count length hCount
    exact examined_bounds kind hCount

/-- A program whose block announces as many entries as a count can, and has one. -/
def hugeCount : List UInt8 :=
  [0x01, 0x20, 0xFF, 0xFF, 0xFF, 0xFF, 0xFF, 0xFF, 0xFF, 0xFF, 0xFF, 0x01, 0x05]

/-- The walk over the block gives up at the second entry. -/
theorem scan_and_walk_of_huge_count :
    (∀ descriptor ∈ blockAndBranch, descriptor.IsInteger) ∧
      Varint.decode (hugeCount.drop 2) = .decoded Varint.maxNumber 10 ∧
      blockSizeAt .integers hugeCount (1 : Nat) =
        .error (.program (.rejected (.undecodableBlock .integers (1 : Nat) ⟨some 1, .pastEnd⟩))) ∧
      examined .integers hugeCount 1 = 2 := by
  have hCount : Varint.decode (hugeCount.drop 2) = .decoded Varint.maxNumber 10 := rfl
  have hFault : ConstBlock.measure .integers (hugeCount.drop 2) = .error ⟨some 1, .pastEnd⟩ := rfl
  have hBound : 13 < Numeral.writableBound :=
    Nat.lt_of_lt_of_le (by decide) two_pow_le_writableBound
  have hWritable : (Rejection.undecodableBlock .integers (1 : Nat) ⟨some 1, .pastEnd⟩).isWritable =
      true :=
    isWritable_of_firstFault ((ConstBlock.measure_eq_error_iff _ _ _).mp hFault)
      (Nat.lt_trans (by decide) hBound) hBound
  have hError : blockSizeAt .integers hugeCount (1 : Nat) =
      .error (.program (.rejected (.undecodableBlock .integers (1 : Nat) ⟨some 1, .pastEnd⟩))) := by
    rw [blockSizeAt_of_error hFault, Failure.worded, if_pos hWritable]
  obtain ⟨_, _, _, hWalk⟩ := scan_and_walk_bounded blockAndBranch_isInteger 1 1 hugeCount
  exact ⟨blockAndBranch_isInteger, hCount, hError,
    ((hWalk .integers 1 _ _ hCount).2.2 1 .pastEnd hError).1⟩

end LogicSignature.Program
