import LogicSignature.Program.BlockAt
import LogicSignature.Proofs.RefusalWording

/-
The extent of a constant block at a position of a program.

Behind a position either the body of a block stands, which then lies within the program, or there is
a first fault. The extent depends on the bytes of the block alone, and a program that is cut within
a block has a fault in its place.
-/

namespace LogicSignature.Program

open ConstBlock (BodyForm FirstFault)

section

variable {kind : BlockKind} {program : List UInt8} {position : Nat}

/-! ### Measuring at a position -/

theorem toNat_behind (position : Nat) : ((position : Int) + 1).toNat = position + 1 := by omega

theorem blockSizeAt_of_ok {size : Nat}
    (hMeasure : ConstBlock.measure kind (program.drop (position + 1)) = .ok size) :
    blockSizeAt kind program position = .ok size := by
  rw [blockSizeAt, if_neg (by omega), toNat_behind, hMeasure]

theorem blockSizeAt_of_error {cause : ConstBlock.Fault}
    (hMeasure : ConstBlock.measure kind (program.drop (position + 1)) = .error cause) :
    blockSizeAt kind program position =
      .error (.program (Failure.worded (.rejected (.undecodableBlock kind position cause)))) := by
  rw [blockSizeAt, if_neg (by omega), toNat_behind, hMeasure]

theorem measure_of_blockSizeAt {size : Nat}
    (hSize : blockSizeAt kind program position = .ok size) :
    ConstBlock.measure kind (program.drop (position + 1)) = .ok size := by
  cases hMeasure : ConstBlock.measure kind (program.drop (position + 1)) with
  | ok other =>
      rw [blockSizeAt_of_ok hMeasure] at hSize
      cases hSize
      rfl
  | error cause =>
      rw [blockSizeAt_of_error hMeasure] at hSize
      cases hSize

variable (kind program position)

theorem blockSizeAt_eq_ok_iff (size : Nat) :
    blockSizeAt kind program position = .ok size ↔
      position + size ≤ program.length ∧
        BodyForm kind ((program.drop (position + 1)).take (size - 1)) := by
  constructor
  · intro hSize
    obtain ⟨body, rest, hBytes, hBody, rfl⟩ :=
      (ConstBlock.measure_eq_ok_iff _ _ _).mp (measure_of_blockSizeAt hSize)
    have hPos := hBody.length_pos
    have hLength := congrArg List.length hBytes
    rw [List.length_drop, List.length_append] at hLength
    refine ⟨by omega, ?_⟩
    rwa [hBytes, Nat.add_sub_cancel_left, List.take_left]
  · rintro ⟨hInside, hBody⟩
    have hPos := hBody.length_pos
    rw [List.length_take, List.length_drop] at hPos
    apply blockSizeAt_of_ok
    rw [ConstBlock.measure_eq_ok_iff]
    refine ⟨_, _, (List.take_append_drop (size - 1) _).symm, hBody, ?_⟩
    rw [List.length_take, List.length_drop]
    omega

theorem blockSizeAt_eq_error_iff (fault : Fault) :
    blockSizeAt kind program position = .error fault ↔
      ∃ cause, FirstFault kind (program.drop (position + 1)) cause ∧
        fault = .program (Failure.worded (.rejected (.undecodableBlock kind position cause))) := by
  constructor
  · intro hError
    cases hMeasure : ConstBlock.measure kind (program.drop (position + 1)) with
    | ok size =>
        rw [blockSizeAt_of_ok hMeasure] at hError
        cases hError
    | error cause =>
        rw [blockSizeAt_of_error hMeasure] at hError
        cases hError
        exact ⟨cause, (ConstBlock.measure_eq_error_iff _ _ _).mp hMeasure, rfl⟩
  · rintro ⟨cause, hCause, rfl⟩
    exact blockSizeAt_of_error hCause.measure_eq

variable {kind program position}

/-- The report of a first fault shows no number beyond the position and the end of the program. -/
theorem isWritable_of_firstFault {cause : ConstBlock.Fault}
    (hCause : FirstFault kind (program.drop (position + 1)) cause)
    (hPosition : position + 1 < Numeral.writableBound)
    (hLength : program.length < Numeral.writableBound) :
    (Rejection.undecodableBlock kind position cause).isWritable = true := by
  apply isWritable_undecodableBlock (by omega)
  apply ConstBlock.measure_showsBelow two_pow_le_writableBound _ hCause.measure_eq
  rw [List.length_drop]
  omega

end

/-- A size is found exactly if a block stands at the position, with so many bytes and all of them
within the program; otherwise the first fault is found. It is reported in words if the numbers of
the report can be written, and so whenever the next position and the length of the program can. -/
theorem blockSizeAt_outcomes (kind : BlockKind) (program : List UInt8) (position : Nat) :
    (∀ size, blockSizeAt kind program position = .ok size ↔
      position + size ≤ program.length ∧
        BodyForm kind ((program.drop (position + 1)).take (size - 1))) ∧
    (∀ fault, blockSizeAt kind program position = .error fault ↔
      ∃ cause, FirstFault kind (program.drop (position + 1)) cause ∧
        fault = .program (Failure.worded (.rejected (.undecodableBlock kind position cause)))) ∧
    (position + 1 < Numeral.writableBound → program.length < Numeral.writableBound →
      ∀ fault, blockSizeAt kind program position = .error fault ↔
        ∃ cause, FirstFault kind (program.drop (position + 1)) cause ∧
          fault = .program (.rejected (.undecodableBlock kind position cause))) := by
  refine ⟨blockSizeAt_eq_ok_iff kind program position,
    blockSizeAt_eq_error_iff kind program position, fun hPosition hLength fault => ?_⟩
  rw [blockSizeAt_eq_error_iff]
  refine exists_congr fun cause => and_congr_right fun hCause => ?_
  rw [Failure.worded, if_pos (isWritable_of_firstFault hCause hPosition hLength)]

/-- Three entries are announced, two stand there, and the program ends. -/
theorem blockSizeAt_third_entry_missing :
    blockSizeAt .integers [0x01, 0x20, 0x03, 0x01, 0x02] 1 =
      .error (.program (.rejected (.undecodableBlock .integers 1 ⟨some 2, .pastEnd⟩))) := by
  have hBound := two_pow_le_writableBound
  refine ((blockSizeAt_outcomes .integers [0x01, 0x20, 0x03, 0x01, 0x02] 1).2.2
    (by omega) (by simp only [List.length_cons, List.length_nil]; omega) _).mpr ⟨_, ?_, rfl⟩
  exact (ConstBlock.measure_eq_error_iff _ _ _).mp rfl

/-- Behind the last position that can be written there is a first fault, but it has no words: the
report would show the position after it. -/
theorem blockSizeAt_unwritable_position :
    FirstFault .integers [] ⟨none, .truncated 1⟩ ∧
      blockSizeAt .integers [] (Numeral.writableBound - 1 : Nat) =
        .error (.program .unwritable) := by
  have hFault : FirstFault .integers [] ⟨none, .truncated 1⟩ :=
    (ConstBlock.measure_eq_error_iff _ _ _).mp rfl
  have hUnwritable : (Rejection.undecodableBlock .integers (Numeral.writableBound - 1 : Nat)
      ⟨none, .truncated 1⟩).isWritable = false := by decide +kernel
  refine ⟨hFault, (blockSizeAt_eq_error_iff _ _ _ _).mpr ⟨⟨none, .truncated 1⟩, ?_, ?_⟩⟩
  · rwa [List.drop_nil]
  · rw [Failure.worded, if_neg (by rw [hUnwritable]; exact Bool.false_ne_true)]

/-! ### Other bytes around a block -/

/-- No block of a kind stands at a position. The reason is given in words whenever the next position
and the length of the program can be written. -/
structure BlockRefused (kind : BlockKind) (program : List UInt8) (position : Nat) : Prop where
  answer : ∃ cause, blockSizeAt kind program position =
    .error (.program (Failure.worded (.rejected (.undecodableBlock kind position cause))))
  inWords : position + 1 < Numeral.writableBound → program.length < Numeral.writableBound →
    ∃ cause, blockSizeAt kind program position =
      .error (.program (.rejected (.undecodableBlock kind position cause)))

theorem blockRefused_of_firstFault {kind : BlockKind} {program : List UInt8} {position : Nat}
    {cause : ConstBlock.Fault} (hCause : FirstFault kind (program.drop (position + 1)) cause) :
    BlockRefused kind program position := by
  have hAnswer := blockSizeAt_of_error hCause.measure_eq
  refine ⟨⟨cause, hAnswer⟩, fun hPosition hLength => ⟨cause, ?_⟩⟩
  rw [hAnswer, Failure.worded, if_pos (isWritable_of_firstFault hCause hPosition hLength)]

/-- A block that stands in what is left of a program stands in the whole program. -/
theorem blockSizeAt_of_take {kind : BlockKind} {program : List UInt8} {position size cut : Nat}
    (hSize : blockSizeAt kind (program.take cut) position = .ok size) :
    blockSizeAt kind program position = .ok size := by
  obtain ⟨body, rest, hBytes, hBody, hLength⟩ :=
    (ConstBlock.measure_eq_ok_iff _ _ _).mp (measure_of_blockSizeAt hSize)
  have hPos := hBody.length_pos
  have hInside : position + 1 ≤ (program.take cut).length := by
    have hTotal := congrArg List.length hBytes
    rw [List.length_drop, List.length_append] at hTotal
    omega
  apply blockSizeAt_of_ok
  rw [ConstBlock.measure_eq_ok_iff]
  refine ⟨body, rest ++ program.drop cut, ?_, hBody, hLength⟩
  rw [← List.append_assoc, ← hBytes, ← List.drop_append_of_le_length hInside,
    List.take_append_drop]

/-- A block has the same size in every program that has its bytes behind the opcode, whatever else
it has. In a program that is cut in front of the end of the block, no block stands there. -/
theorem blockSizeAt_depends_on_block {kind : BlockKind} {program : List UInt8} {position size : Nat}
    (hSize : blockSizeAt kind program position = .ok size) :
    (∀ other : List UInt8, position + size ≤ other.length →
      (∀ index, position < index → index < position + size → other[index]? = program[index]?) →
      blockSizeAt kind other position = .ok size) ∧
    ∀ cut < position + size, BlockRefused kind (program.take cut) position := by
  obtain ⟨hInside, hBody⟩ := (blockSizeAt_eq_ok_iff _ _ _ _).mp hSize
  constructor
  · intro other hOther hAgree
    have hSame : (other.drop (position + 1)).take (size - 1) =
        (program.drop (position + 1)).take (size - 1) := by
      refine List.ext_getElem? fun index => ?_
      by_cases hIndex : index < size - 1
      · rw [List.getElem?_take_of_lt hIndex, List.getElem?_take_of_lt hIndex, List.getElem?_drop,
          List.getElem?_drop]
        exact hAgree _ (by omega) (by omega)
      · rw [List.getElem?_take_eq_none (by omega), List.getElem?_take_eq_none (by omega)]
    rw [blockSizeAt_eq_ok_iff, hSame]
    exact ⟨hOther, hBody⟩
  · intro cut hCut
    rcases ConstBlock.exists_body_or_firstFault kind ((program.take cut).drop (position + 1)) with
      ⟨body, rest, hBytes, hLeft⟩ | ⟨cause, hCause⟩
    · -- A block that is left would be the whole one, which is longer than what is left.
      have hShort : blockSizeAt kind (program.take cut) position = .ok (1 + body.length) := by
        apply blockSizeAt_of_ok
        rw [hBytes]
        exact hLeft.measure_eq rest
      have hWhole := blockSizeAt_of_take hShort
      rw [hSize] at hWhole
      cases hWhole
      obtain ⟨hFits, _⟩ := (blockSizeAt_eq_ok_iff _ _ _ _).mp hShort
      rw [List.length_take] at hFits
      omega
    · exact blockRefused_of_firstFault hCause

/-- A block of two constants keeps its size behind another opcode and in front of other bytes, and
loses it with its last byte. -/
theorem blockSizeAt_two_constants :
    blockSizeAt .bytes [0x26, 0x02, 0x01, 0xAA, 0x00] 0 = .ok 5 ∧
      blockSizeAt .bytes [0x80, 0x02, 0x01, 0xAA, 0x00, 0xFF, 0x99] 0 = .ok 5 ∧
      BlockRefused .bytes [0x26, 0x02, 0x01, 0xAA] 0 := by
  have hSize : blockSizeAt .bytes [0x26, 0x02, 0x01, 0xAA, 0x00] (0 : Nat) = .ok 5 := rfl
  have hAgree : ∀ index < 5, 0 < index →
      ([0x80, 0x02, 0x01, 0xAA, 0x00, 0xFF, 0x99] : List UInt8)[index]? =
        [0x26, 0x02, 0x01, 0xAA, 0x00][index]? := by decide
  refine ⟨hSize, ?_, (blockSizeAt_depends_on_block hSize).2 4 (by decide)⟩
  apply (blockSizeAt_depends_on_block hSize).1 _ (by decide)
  exact fun index hBehind hInside => hAgree index hInside hBehind

end LogicSignature.Program
