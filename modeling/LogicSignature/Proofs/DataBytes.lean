import LogicSignature.Proofs.BlockPayload
import LogicSignature.Proofs.IntegerTables
import LogicSignature.Proofs.PathLocality

/-
What the answer to a program does not depend on.

The operands of an instruction of fixed size and the constants of a byte block are data. The scan
steps over them, so other data in their place, even bytes that are opcodes, change nothing. Nor does
the table matter for an opcode that stands at no position where the scan takes one.
-/

namespace LogicSignature.Program

open Opcode (Descriptor Table)

/-- The scan starts, and reaches a position. -/
def ScanReaches (table : Table) (limits : Limits) (program : List UInt8)
    (arguments : List (List UInt8)) (position : Nat) : Prop :=
  ∃ version start tally, Admitted table limits program arguments version start ∧
    Reached table program start position tally

/-- A byte strictly inside an instruction of fixed size that the scan reaches, or in a constant of a
byte block that it reaches. -/
inductive DataByte (table : Table) (limits : Limits) (program : List UInt8)
    (arguments : List (List UInt8)) (index : Nat) : Prop
  | operand (position size : Nat) (descriptor : Descriptor)
      (hReached : ScanReaches table limits program arguments position)
      (hDescribed : DescribedAt table program position descriptor)
      (hFixed : descriptor.block = none) (hSize : descriptor.size = .integer size)
      (hBehind : position < index) (hInside : index < position + size)
  | payload (position offset : Nat) (descriptor : Descriptor) (block rest : List UInt8)
      (hReached : ScanReaches table limits program arguments position)
      (hDescribed : DescribedAt table program position descriptor)
      (hKind : descriptor.block = some .bytes) (hBytes : program.drop position = block ++ rest)
      (hPayload : ConstBlock.PayloadAt block offset) (hIndex : index = position + offset)

section

variable {table : Table} {limits : Limits} {program : List UInt8} {arguments : List (List UInt8)}
  {version start : Nat}

/-! ### Data bytes lie inside instructions -/

theorem ScanReaches.exists_path {position : Nat}
    (hReached : ScanReaches table limits program arguments position)
    (hAdmitted : Admitted table limits program arguments version start) :
    ∃ steps, Path table program start steps position := by
  obtain ⟨_, _, _, hOther, steps, hPath, _⟩ := hReached
  cases hAdmitted.decoded.symm.trans hOther.decoded
  exact ⟨steps, hPath⟩

theorem DataByte.exists_admitted {index : Nat}
    (hData : DataByte table limits program arguments index) :
    ∃ version start, Admitted table limits program arguments version start := by
  have hReached : ∃ position, ScanReaches table limits program arguments position := by
    cases hData with
    | operand position _ _ hReached => exact ⟨position, hReached⟩
    | payload position _ _ _ _ hReached => exact ⟨position, hReached⟩
  obtain ⟨_, version, start, _, hAdmitted, _⟩ := hReached
  exact ⟨version, start, hAdmitted⟩

theorem DataByte.exists_instruction {index : Nat}
    (hData : DataByte table limits program arguments index)
    (hAdmitted : Admitted table limits program arguments version start) :
    ∃ before position descriptor size, Path table program start before position ∧
      InstructionAt table program position descriptor size ∧ position < index ∧
      index < position + size ∧
      ∀ kind, descriptor.block = some kind → kind = .bytes ∧ ∃ block rest,
        program.drop position = block ++ rest ∧ block.length = size ∧
        ConstBlock.PayloadAt block (index - position) := by
  cases hData with
  | operand position size descriptor hReached hDescribed hFixed hSize hBehind hInside =>
      obtain ⟨before, hBefore⟩ := hReached.exists_path hAdmitted
      refine ⟨before, position, descriptor, size, hBefore, ⟨hDescribed, .fixed size hFixed hSize⟩,
        hBehind, hInside, ?_⟩
      intro kind hKind
      rw [hFixed] at hKind
      cases hKind
  | payload position offset descriptor block rest hReached hDescribed hKind hBytes hPayload
      hIndex =>
      obtain ⟨before, hBefore⟩ := hReached.exists_path hAdmitted
      obtain ⟨hForm, hPos, hInside⟩ := hPayload.blockForm
      refine ⟨before, position, descriptor, block.length, hBefore,
        ⟨hDescribed, .block .bytes block rest hKind hBytes hForm⟩, by omega, by omega, ?_⟩
      intro kind hOther
      rw [hKind] at hOther
      cases hOther
      refine ⟨rfl, block, rest, hBytes, rfl, ?_⟩
      rwa [hIndex, Nat.add_sub_cancel_left]

theorem not_dataByte_of_path (hAdmitted : Admitted table limits program arguments version start)
    {steps : List Placed} {position : Nat} (hPath : Path table program start steps position) :
    ¬ DataByte table limits program arguments position := by
  intro hData
  obtain ⟨before, other, descriptor, size, hBefore, hInstruction, hBehind, hInside, _⟩ :=
    hData.exists_instruction hAdmitted
  rcases hBefore.not_inside hInstruction hPath with hFirst | hSecond
  · omega
  · omega

/-- A data byte inside a block is in a constant of that block, and the block is one of bytes. -/
theorem DataByte.payloadAt {index : Nat} (hData : DataByte table limits program arguments index)
    (hAdmitted : Admitted table limits program arguments version start) {before : List Placed}
    {position : Nat} {descriptor : Descriptor} {kind : BlockKind} {block rest : List UInt8}
    (hPath : Path table program start before position)
    (hInstruction : InstructionAt table program position descriptor block.length)
    (hKind : descriptor.block = some kind) (hBytes : program.drop position = block ++ rest)
    (hFrom : position ≤ index) (hInside : index < position + block.length) :
    kind = .bytes ∧ ConstBlock.PayloadAt block (index - position) := by
  obtain ⟨_, other, otherDescriptor, size, hOtherPath, hOther, hBehind, hWithin, hBlock⟩ :=
    hData.exists_instruction hAdmitted
  -- Both instructions hold the byte, so they are one.
  have hSame : other = position := by
    have hNotLater := hPath.not_inside hInstruction hOtherPath
    have hNotEarlier := hOtherPath.not_inside hOther hPath
    omega
  subst hSame
  obtain ⟨hDescriptor, hSize⟩ := hInstruction.unique hOther
  subst hDescriptor
  obtain ⟨hBytesKind, found, tail, hFound, hLength, hPayload⟩ := hBlock kind hKind
  have hBlocks : found ++ tail = block ++ rest := hFound.symm.trans hBytes
  obtain ⟨hFoundBlock, _⟩ := List.append_inj hBlocks (by omega)
  rw [hFoundBlock] at hPayload
  exact ⟨hBytesKind, hPayload⟩

/-! ### Other data -/

section

variable {edited : List UInt8} (hAdmitted : Admitted table limits program arguments version start)
  (hAgree : AgreeOutside (DataByte table limits program arguments) program edited)

include hAdmitted hAgree

theorem Admitted.after_edit : Admitted table limits edited arguments version start := by
  have hVersion : edited.take start = program.take start := by
    apply (hAgree.take start).eq_of_not_free
    intro index hIndex hData
    obtain ⟨before, position, _, _, hBefore, _, hBehind, _⟩ := hData.exists_instruction hAdmitted
    have hStart := hBefore.start_le_stop
    rw [List.length_take] at hIndex
    omega
  refine ⟨?_, hAdmitted.supported, ?_⟩
  · rw [← List.take_append_drop start edited, hVersion]
    exact Varint.decode_take_append hAdmitted.decoded _
  · have hFits := hAdmitted.fits
    rwa [totalLength, ← hAgree.length] at hFits

theorem InstructionAt.after_edit {before : List Placed} {position size : Nat}
    {descriptor : Descriptor}
    (hPath : Path table program start before position)
    (hInstruction : InstructionAt table program position descriptor size) :
    InstructionAt table edited position descriptor size := by
  apply hInstruction.transfer (hAgree.same position (not_dataByte_of_path hAdmitted hPath))
  intro kind block rest hKind hBytes hForm hSize
  subst hSize
  have hBehind := hAgree.drop position
  rw [hBytes] at hBehind
  obtain ⟨moved, tail, hMoved, hBlock, _⟩ := hBehind.split
  refine ⟨moved, tail, hMoved, hForm.of_agreeOutside (hBlock.mono ?_), hBlock.length⟩
  intro offset hOffset hData
  have hPayload := hData.payloadAt hAdmitted hPath hInstruction hKind hBytes (by omega) (by omega)
  rwa [Nat.add_sub_cancel_left] at hPayload

/-- There is no data from an instruction on that cannot be stepped over. -/
theorem drop_after_edit {steps : List Placed} {stop : Nat}
    (hPath : Path table program start steps stop)
    (hNone : ∀ descriptor size, ¬ InstructionAt table program stop descriptor size) :
    edited.drop stop = program.drop stop := by
  apply (hAgree.drop stop).eq_of_not_free
  intro index _ hData
  obtain ⟨before, position, descriptor, size, hBefore, hInstruction, _, hInside, _⟩ :=
    hData.exists_instruction hAdmitted
  rcases hPath.comparable hBefore with ⟨between, hBetween⟩ | ⟨between, hBetween⟩
  · cases hBetween with
    | nil => exact hNone descriptor size hInstruction
    | cons hFirst _ => exact hNone _ _ hFirst
  · cases hBetween with
    | nil => exact hNone descriptor size hInstruction
    | cons hFirst hRest =>
        obtain ⟨_, hSize⟩ := hInstruction.unique hFirst
        have hLater := hRest.start_le_stop
        omega

theorem Halts.after_edit {steps : List Placed} {stop : Nat} {tally : Tally}
    {outcome : Except Failure Tally} (hPath : Path table program start steps stop)
    (hHalts : Halts table program stop tally outcome) : Halts table edited stop tally outcome := by
  have hOpcode := hAgree.same stop (not_dataByte_of_path hAdmitted hPath)
  have hLength := hAgree.length
  cases hHalts with
  | finished hEnd => exact .finished (by omega)
  | invalidInstruction opcode hGet hNone =>
      exact .invalidInstruction opcode (hOpcode.trans hGet) hNone
  | costOverflow descriptor hDescribed hCost =>
      exact .costOverflow descriptor (hDescribed.transfer hOpcode) hCost
  | undecodableBlock descriptor next kind fault hDescribed hCost hKind hNone hFault =>
      have hDrop : edited.drop stop = program.drop stop := by
        apply drop_after_edit hAdmitted hAgree hPath
        intro other size hInstruction
        have hSame := hInstruction.described.unique hDescribed
        subst hSame
        cases hInstruction.occupies with
        | fixed _ hFixed =>
            rw [hFixed] at hKind
            cases hKind
        | block otherKind block rest hOther hBytes hForm =>
            rw [hKind] at hOther
            cases hOther
            exact hNone block rest hBytes hForm
      have hNext : edited.drop (stop + 1) = program.drop (stop + 1) := by
        rw [← List.drop_drop, ← List.drop_drop, hDrop]
      exact .undecodableBlock descriptor next kind fault (hDescribed.transfer hOpcode) hCost hKind
        (by rwa [hDrop]) (by rwa [hNext])
  | realPosition descriptor next size hDescribed hCost hFixed hSize hInside =>
      exact .realPosition descriptor next size (hDescribed.transfer hOpcode) hCost hFixed hSize
        (by rwa [hLength])
  | realEnd descriptor _ size hDescribed hCost hFixed hSize hBehind =>
      exact .realEnd descriptor _ size (hDescribed.transfer hOpcode) hCost hFixed hSize
        (by rwa [hLength])

theorem scanFrom_after_edit :
    scanFrom table edited start .start = scanFrom table program start .start := by
  obtain ⟨steps, stop, final, hPath, hAfter, hHalts⟩ :=
    (scanFrom_eq_iff table program start .start _).mp rfl
  have hEdited : Path table edited start steps stop := by
    apply hPath.transfer
    intro before position descriptor size _ _ hBefore _ hInstruction
    exact hInstruction.after_edit hAdmitted hAgree hBefore
  exact (scanFrom_eq_iff table edited start .start _).mpr
    ⟨steps, stop, final, hEdited, hAfter, hHalts.after_edit hAdmitted hAgree hPath⟩

end

/-- Programs and tables that are admitted alike and scanned alike are answered alike. -/
theorem Admitted.validate_eq {other : Table} {edited : List UInt8}
    (hAdmitted : Admitted table limits program arguments version start)
    (hOther : Admitted other limits edited arguments version start)
    (hLength : edited.length = program.length)
    (hScan : scanFrom other edited start .start = scanFrom table program start .start) :
    validate other limits edited arguments = validate table limits program arguments := by
  have hTotal : totalLength edited arguments = totalLength program arguments := by
    rw [totalLength, totalLength, hLength]
  have hCheck : check other limits edited arguments = check table limits program arguments := by
    cases hOutcome : scanFrom table program start .start with
    | error failure =>
        rw [check_of_scan_error _ _ _ _ hAdmitted hOutcome,
          check_of_scan_error _ _ _ _ hOther (hScan.trans hOutcome)]
    | ok final =>
        rw [check_of_scan_ok _ _ _ _ hAdmitted hOutcome,
          check_of_scan_ok _ _ _ _ hOther (hScan.trans hOutcome), hTotal]
  rw [validate, validate, hCheck]

theorem validate_after_edit {edited : List UInt8}
    (hAgree : AgreeOutside (DataByte table limits program arguments) program edited) :
    validate table limits edited arguments = validate table limits program arguments := by
  by_cases hStarts : ∃ version start, Admitted table limits program arguments version start
  · obtain ⟨version, start, hAdmitted⟩ := hStarts
    exact hAdmitted.validate_eq (hAdmitted.after_edit hAgree) hAgree.length
      (scanFrom_after_edit hAdmitted hAgree)
  · -- No scan starts, so there are no data bytes at all.
    have hSame : edited = program := by
      apply hAgree.eq_of_not_free
      intro index _ hData
      exact hStarts hData.exists_admitted
    rw [hSame]

/-! ### Another table -/

theorem Tally.after?_append (tally : Tally) (steps others : List Placed) :
    tally.after? (steps ++ others) =
      (tally.after? steps).bind (fun next => next.after? others) := by
  induction steps generalizing tally with
  | nil => rfl
  | cons placed rest ih =>
      rw [List.cons_append, Tally.after?, Tally.after?]
      cases tally.add? placed.descriptor with
      | none => rfl
      | some next => exact ih next

section

variable {other : Table} (hAdmitted : Admitted table limits program arguments version start)
  (hSame : ∀ position opcode, ScanReaches table limits program arguments position →
    program[position]? = some opcode → other.get? opcode = table.get? opcode)

include hAdmitted hSame

theorem DescribedAt.retabled {position : Nat} {tally : Tally} {descriptor : Descriptor}
    (hReached : Reached table program start position tally)
    (hDescribed : DescribedAt table program position descriptor) :
    DescribedAt other program position descriptor := by
  obtain ⟨opcode, hOpcode, hGet⟩ := hDescribed
  have hSlot := hSame position opcode ⟨version, start, tally, hAdmitted, hReached⟩ hOpcode
  exact ⟨opcode, hOpcode, hSlot.trans hGet⟩

theorem Halts.retabled {position : Nat} {tally : Tally} {outcome : Except Failure Tally}
    (hReached : Reached table program start position tally)
    (hHalts : Halts table program position tally outcome) :
    Halts other program position tally outcome := by
  have hDescribes : ∀ {descriptor}, DescribedAt table program position descriptor →
      DescribedAt other program position descriptor :=
    fun hDescribed => hDescribed.retabled hAdmitted hSame hReached
  cases hHalts with
  | finished hEnd => exact .finished hEnd
  | invalidInstruction opcode hOpcode hNone =>
      have hSlot := hSame position opcode ⟨version, start, tally, hAdmitted, hReached⟩ hOpcode
      exact .invalidInstruction opcode hOpcode (hSlot.trans hNone)
  | costOverflow descriptor hDescribed hCost =>
      exact .costOverflow descriptor (hDescribes hDescribed) hCost
  | undecodableBlock descriptor next kind fault hDescribed hCost hKind hNone hFault =>
      exact .undecodableBlock descriptor next kind fault (hDescribes hDescribed) hCost hKind hNone
        hFault
  | realPosition descriptor next size hDescribed hCost hFixed hSize hInside =>
      exact .realPosition descriptor next size (hDescribes hDescribed) hCost hFixed hSize hInside
  | realEnd descriptor _ size hDescribed hCost hFixed hSize hBehind =>
      exact .realEnd descriptor _ size (hDescribes hDescribed) hCost hFixed hSize hBehind

theorem scanFrom_retabled :
    scanFrom other program start .start = scanFrom table program start .start := by
  obtain ⟨steps, stop, final, hPath, hAfter, hHalts⟩ :=
    (scanFrom_eq_iff table program start .start _).mp rfl
  have hRetabled : Path other program start steps stop := by
    apply hPath.transfer
    intro before position descriptor size after hSteps hBefore _ hInstruction
    -- The costs in front of the instruction add up, since all costs do.
    rw [hSteps, Tally.after?_append, Option.bind_eq_some_iff] at hAfter
    obtain ⟨tally, hTally, _⟩ := hAfter
    exact ⟨hInstruction.described.retabled hAdmitted hSame ⟨before, hBefore, hTally⟩,
      hInstruction.occupies⟩
  have hReached : Reached table program start stop final := ⟨steps, hPath, hAfter⟩
  exact (scanFrom_eq_iff other program start .start _).mpr
    ⟨steps, stop, final, hRetabled, hAfter, hHalts.retabled hAdmitted hSame hReached⟩

end

theorem validate_retabled {other : Table} (hVersion : other.evalMaxVersion = table.evalMaxVersion)
    (hSame : ∀ position opcode, ScanReaches table limits program arguments position →
      program[position]? = some opcode → other.get? opcode = table.get? opcode) :
    validate other limits program arguments = validate table limits program arguments := by
  by_cases hUndecoded : ∀ version start, Varint.decode program ≠ .decoded version start
  · rw [validate, validate, check_of_undecoded _ _ _ _ hUndecoded,
      check_of_undecoded _ _ _ _ hUndecoded]
  · push Not at hUndecoded
    obtain ⟨version, start, hDecoded⟩ := hUndecoded
    cases hNewer : Quantity.less table.evalMaxVersion (.integer version) with
    | true =>
        have hOtherNewer : Quantity.less other.evalMaxVersion (.integer version) = true := by
          rw [hVersion, hNewer]
        rw [validate, validate, check_of_newer _ _ _ _ hDecoded hNewer,
          check_of_newer _ _ _ _ hDecoded hOtherNewer, hVersion]
    | false =>
        have hSupported : Quantity.less other.evalMaxVersion (.integer version) = false := by
          rw [hVersion, hNewer]
        by_cases hLong : limits.maxLength < (totalLength program arguments : Int)
        · rw [validate, validate, check_of_long _ _ _ _ hDecoded hNewer hLong,
            check_of_long _ _ _ _ hDecoded hSupported hLong]
        · have hFits := Int.not_lt.mp hLong
          have hAdmitted : Admitted table limits program arguments version start :=
            ⟨hDecoded, hNewer, hFits⟩
          exact hAdmitted.validate_eq ⟨hDecoded, hSupported, hFits⟩ rfl
            (scanFrom_retabled hAdmitted hSame)

end

/-- Other data bytes, as many as there are, leave the answer as it is, be it a report or a failure.
So do other slots of the table for opcodes that stand at no position that the scan reaches. -/
theorem validate_ignores_data (table : Table) (limits : Limits) (program : List UInt8)
    (arguments : List (List UInt8)) :
    (∀ edited, AgreeOutside (DataByte table limits program arguments) program edited →
      validate table limits edited arguments = validate table limits program arguments) ∧
    ∀ other : Table, other.evalMaxVersion = table.evalMaxVersion →
      (∀ position opcode, ScanReaches table limits program arguments position →
        program[position]? = some opcode → other.get? opcode = table.get? opcode) →
      validate other limits program arguments = validate table limits program arguments :=
  ⟨fun _ hAgree => validate_after_edit hAgree,
    fun _ hVersion hSame => validate_retabled hVersion hSame⟩

/-- A table with a byte block beside an integer block and a branch. -/
def byteBlockTable : Table :=
  .ofDescriptors
    ({ opcode := 0x26, cost := .integer 3, size := .integer 0, name := "bytecblock"
       block := some .bytes, cost_nonneg := by decide, size_pos := nofun } :: blockAndBranch)
    (.integer 1) (.integer 1)

/-- A byte block with one constant, a branch, and an unknown opcode. -/
def constantThenBranch : List UInt8 :=
  [0x01, 0x26, 0x01, 0x02, 0xaa, 0xbb, 0x42, 0x00, 0x00, 0x99]

theorem constantThenBranch_payload :
    ConstBlock.PayloadAt [0x26, 0x01, 0x02, 0xaa, 0xbb] 3 := by
  have hOne : Varint.Spells [0x01] 1 := .intro [] 0x01 (by simp) (by decide) (by decide) (by decide)
  have hTwo : Varint.Spells [0x02] 2 := .intro [] 0x02 (by simp) (by decide) (by decide) (by decide)
  refine ⟨0x26, [0x01], [[0x02, 0xaa, 0xbb]], 1, rfl, hOne, ?_, ?_, rfl⟩
  · intro item hItem
    rw [List.mem_singleton] at hItem
    rw [hItem]
    exact .bytes [0x02] [0xaa, 0xbb] hTwo
  · exact ⟨[], _, [], 1, rfl, ⟨[0x02], [0xaa, 0xbb], rfl, hTwo, by decide, by decide⟩, rfl⟩

theorem constantThenBranch_data :
    DataByte byteBlockTable {} constantThenBranch [] 4 ∧
      DataByte byteBlockTable {} constantThenBranch [] 7 := by
  have hAdmitted : Admitted byteBlockTable {} constantThenBranch [] 1 1 := ⟨rfl, rfl, by decide⟩
  have hBlock : ScanReaches byteBlockTable {} constantThenBranch [] 1 :=
    ⟨1, 1, .start, hAdmitted, [], .nil 1, rfl⟩
  have hBranch : ScanReaches byteBlockTable {} constantThenBranch [] 6 :=
    ⟨1, 1, ⟨.integer 3, 1⟩, hAdmitted, _, .cons ⟨⟨0x26, rfl, rfl⟩, .block .bytes _ _ rfl rfl
      constantThenBranch_payload.blockForm.1⟩ (.nil 6), rfl⟩
  exact ⟨.payload 1 3 _ _ _ hBlock ⟨0x26, rfl, rfl⟩ rfl rfl constantThenBranch_payload rfl,
    .operand 6 3 _ hBranch ⟨0x42, rfl, rfl⟩ rfl rfl (by decide) (by decide)⟩

/-- The unknown opcode is reported where it stands, also when it stands among the operands too and
the constant holds an opcode. -/
theorem validate_opcodes_among_data :
    AgreeOutside (DataByte byteBlockTable {} constantThenBranch []) constantThenBranch
        ((constantThenBranch.set 4 0x42).set 7 0x99) ∧
      validate byteBlockTable {} ((constantThenBranch.set 4 0x42).set 7 0x99) [] =
        .error (.rejected (.invalidInstruction 0x99 9)) := by
  obtain ⟨hConstant, hOperand⟩ := constantThenBranch_data
  have hAgree := ((AgreeOutside.refl _ constantThenBranch).set hConstant 0x42).set hOperand 0x99
  refine ⟨hAgree, ?_⟩
  rw [(validate_ignores_data byteBlockTable {} constantThenBranch []).1 _ hAgree]
  decide +kernel

end LogicSignature.Program
