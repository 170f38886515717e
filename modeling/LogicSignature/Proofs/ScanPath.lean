import LogicSignature.Program.Scan
import LogicSignature.Proofs.BlockGrammar

/-
The scan as a path over the instructions of a program.

An instruction stands at a position when the byte there has a descriptor and the descriptor says how
many bytes follow: a fixed number, or those of a constant block that stands there. A path goes from
instruction to instruction. The scan follows the only path there is, up to a position where it
halts: at the end of the program, or at an instruction that it cannot step over.
-/

namespace LogicSignature.Program

open Opcode (Descriptor Table)

/-- An instruction of a program: where it stands, and what describes it. -/
structure Placed where
  position : Nat
  descriptor : Descriptor

def DescribedAt (table : Table) (program : List UInt8) (position : Nat)
    (descriptor : Descriptor) : Prop :=
  ∃ opcode, program[position]? = some opcode ∧ table.get? opcode = some descriptor

/-- The number of bytes that an instruction takes at the start of bytes. A fixed size may reach
beyond them; a block is part of them. -/
inductive Occupies (descriptor : Descriptor) (bytes : List UInt8) : Nat → Prop
  | fixed (size : Nat) (hBlock : descriptor.block = none)
      (hSize : descriptor.size = .integer size) :
      Occupies descriptor bytes size
  | block (kind : BlockKind) (block rest : List UInt8) (hBlock : descriptor.block = some kind)
      (hBytes : bytes = block ++ rest) (hForm : ConstBlock.BlockForm kind block) :
      Occupies descriptor bytes block.length

structure InstructionAt (table : Table) (program : List UInt8) (position : Nat)
    (descriptor : Descriptor) (size : Nat) : Prop where
  described : DescribedAt table program position descriptor
  occupies : Occupies descriptor (program.drop position) size

/-- Instructions in a row, from one position to another. -/
inductive Path (table : Table) (program : List UInt8) : Nat → List Placed → Nat → Prop
  | nil (position : Nat) : Path table program position [] position
  | cons {position size stop : Nat} {descriptor : Descriptor} {rest : List Placed}
      (hInstruction : InstructionAt table program position descriptor size)
      (hRest : Path table program (position + size) rest stop) :
      Path table program position (⟨position, descriptor⟩ :: rest) stop

/-- The tally after one more instruction, if the costs can be added. -/
def Tally.add? (tally : Tally) (descriptor : Descriptor) : Option Tally :=
  (Quantity.add? tally.cost descriptor.cost).map (fun cost => ⟨cost, tally.instructions + 1⟩)

def Tally.after? : Tally → List Placed → Option Tally
  | tally, [] => some tally
  | tally, placed :: rest => (tally.add? placed.descriptor).bind (fun next => next.after? rest)

/-- How a scan ends at a position that it reached with a tally. -/
inductive Halts (table : Table) (program : List UInt8) (position : Nat) (tally : Tally) :
    Except Failure Tally → Prop
  | finished (hEnd : program.length ≤ position) :
      Halts table program position tally (.ok tally)
  | invalidInstruction (opcode : UInt8) (hOpcode : program[position]? = some opcode)
      (hNone : table.get? opcode = none) :
      Halts table program position tally (.error (.rejected (.invalidInstruction opcode position)))
  | costOverflow (descriptor : Descriptor)
      (hDescribed : DescribedAt table program position descriptor)
      (hCost : tally.add? descriptor = none) :
      Halts table program position tally (.error .costOverflow)
  | undecodableBlock (descriptor : Descriptor) (next : Tally) (kind : BlockKind)
      (fault : ConstBlock.Fault) (hDescribed : DescribedAt table program position descriptor)
      (hCost : tally.add? descriptor = some next) (hBlock : descriptor.block = some kind)
      (hNone : ∀ block rest, program.drop position = block ++ rest →
        ¬ ConstBlock.BlockForm kind block)
      (hFault : ConstBlock.measure kind (program.drop (position + 1)) = .error fault) :
      Halts table program position tally
        (.error (.rejected (.undecodableBlock kind position fault)))
  | realPosition (descriptor : Descriptor) (next : Tally) (size : Binary64)
      (hDescribed : DescribedAt table program position descriptor)
      (hCost : tally.add? descriptor = some next) (hBlock : descriptor.block = none)
      (hSize : descriptor.size = .real size)
      (hInside : Quantity.less (.real size) (.integer (program.length - position : Nat)) = true) :
      Halts table program position tally (.error .realPosition)
  | realEnd (descriptor : Descriptor) (next : Tally) (size : Binary64)
      (hDescribed : DescribedAt table program position descriptor)
      (hCost : tally.add? descriptor = some next) (hBlock : descriptor.block = none)
      (hSize : descriptor.size = .real size)
      (hBehind : Quantity.less (.real size) (.integer (program.length - position : Nat)) = false) :
      Halts table program position tally (.ok next)

def scanFrom (table : Table) (program : List UInt8) (position : Nat) (tally : Tally) :
    Except Failure Tally :=
  scan table position 0 tally (program.drop position)

/-! ### One instruction -/

theorem DescribedAt.lt_length {table : Table} {program : List UInt8} {position : Nat}
    {descriptor : Descriptor} (hDescribed : DescribedAt table program position descriptor) :
    position < program.length := by
  obtain ⟨opcode, hOpcode, _⟩ := hDescribed
  exact (List.getElem?_eq_some_iff.mp hOpcode).1

theorem DescribedAt.unique {table : Table} {program : List UInt8} {position : Nat}
    {left right : Descriptor} (hLeft : DescribedAt table program position left)
    (hRight : DescribedAt table program position right) : left = right := by
  obtain ⟨opcode, hOpcode, hGet⟩ := hLeft
  obtain ⟨other, hOther, hGetOther⟩ := hRight
  rw [hOpcode] at hOther
  have hSame : opcode = other := Option.some.inj hOther
  rw [← hSame, hGet] at hGetOther
  exact Option.some.inj hGetOther

theorem scan_operands (table : Table) (position operands : Nat) (tally : Tally)
    (bytes : List UInt8) :
    scan table position operands tally bytes =
      scan table (position + operands) 0 tally (bytes.drop operands) := by
  induction operands generalizing position bytes with
  | zero => rfl
  | succ left ih =>
      cases bytes with
      | nil => rfl
      | cons byte rest =>
          rw [scan, ih, List.drop_succ_cons]
          congr 1
          omega

theorem drop_eq_cons {program : List UInt8} {position : Nat} {opcode : UInt8}
    (hOpcode : program[position]? = some opcode) :
    program.drop position = opcode :: program.drop (position + 1) := by
  obtain ⟨hInside, hGet⟩ := List.getElem?_eq_some_iff.mp hOpcode
  rw [List.drop_eq_getElem_cons hInside, hGet]

/-- The scan at a described byte: the cost is added, then the descriptor says where to go on. -/
theorem scanFrom_described {table : Table} {program : List UInt8} {position : Nat}
    {descriptor : Descriptor} (tally : Tally)
    (hDescribed : DescribedAt table program position descriptor) :
    scanFrom table program position tally =
      match tally.add? descriptor with
      | none => .error .costOverflow
      | some next =>
        match advance descriptor position (program.drop (position + 1)) with
        | .error failure => .error failure
        | .ok .finish => .ok next
        | .ok (.skip count) => scanFrom table program (position + 1 + count) next := by
  obtain ⟨opcode, hOpcode, hGet⟩ := hDescribed
  rw [scanFrom, drop_eq_cons hOpcode, scan, hGet, Tally.add?]
  cases hCost : Quantity.add? tally.cost descriptor.cost with
  | none => simp only [hCost, Option.map_none]
  | some cost =>
      simp only [hCost, Option.map_some]
      cases advance descriptor position (program.drop (position + 1)) with
      | error failure => rfl
      | ok next =>
          cases next with
          | finish => rfl
          | skip count =>
              simp only
              rw [scan_operands, List.drop_drop, scanFrom]

theorem Occupies.pos {descriptor : Descriptor} {bytes : List UInt8} {size : Nat}
    (hOccupies : Occupies descriptor bytes size) : 1 ≤ size := by
  cases hOccupies with
  | fixed _ hBlock hSize =>
      have hPos := descriptor.size_pos hBlock
      rw [hSize, Quantity.less_integer, decide_eq_false_iff_not] at hPos
      omega
  | block kind block rest hBlock hBytes hForm =>
      cases hForm
      simp

theorem InstructionAt.scanFrom_eq {table : Table} {program : List UInt8} {position size : Nat}
    {descriptor : Descriptor} {tally next : Tally}
    (hInstruction : InstructionAt table program position descriptor size)
    (hCost : tally.add? descriptor = some next) :
    scanFrom table program position tally = scanFrom table program (position + size) next := by
  have hPos : 1 ≤ size := hInstruction.occupies.pos
  have hLanding : position + 1 + (size - 1) = position + size := by omega
  have hAdvance : advance descriptor position (program.drop (position + 1)) =
      .ok (.skip (size - 1)) := by
    obtain ⟨opcode, hOpcode, _⟩ := hInstruction.described
    have hDrop := drop_eq_cons hOpcode
    cases hInstruction.occupies with
    | fixed _ hBlock hSize =>
        rw [advance, hBlock, hSize]
        rfl
    | block kind block rest hBlock hBytes hForm =>
        have hMeasure : ConstBlock.measure kind (program.drop (position + 1)) =
            .ok block.length :=
          (ConstBlock.measure_eq_ok_iff_blockForm kind opcode _ _).mpr
            ⟨block, rest, hDrop.symm.trans hBytes, hForm, rfl⟩
        rw [advance, hBlock]
        simp only [hMeasure]
  rw [scanFrom_described tally hInstruction.described, hCost]
  simp only [hAdvance, hLanding]

theorem Halts.scanFrom_eq {table : Table} {program : List UInt8} {position : Nat} {tally : Tally}
    {outcome : Except Failure Tally} (hHalts : Halts table program position tally outcome) :
    scanFrom table program position tally = outcome := by
  have hRemaining : ∀ {descriptor}, DescribedAt table program position descriptor →
      ((program.length - position : Nat) : Int) = (program.drop (position + 1)).length + 1 := by
    intro descriptor hDescribed
    have hInside := hDescribed.lt_length
    rw [List.length_drop]
    omega
  cases hHalts with
  | finished hEnd =>
      rw [scanFrom, List.drop_eq_nil_of_le hEnd, scan]
  | invalidInstruction opcode hOpcode hNone =>
      rw [scanFrom, drop_eq_cons hOpcode, scan, hNone]
  | costOverflow descriptor hDescribed hCost =>
      rw [scanFrom_described tally hDescribed, hCost]
  | undecodableBlock descriptor next kind fault hDescribed hCost hBlock hNone hFault =>
      have hAdvance : advance descriptor position (program.drop (position + 1)) =
          .error (.rejected (.undecodableBlock kind position fault)) := by
        rw [advance, hBlock]
        simp only [hFault]
      rw [scanFrom_described tally hDescribed, hCost]
      simp only [hAdvance]
  | realPosition descriptor next size hDescribed hCost hBlock hSize hInside =>
      rw [hRemaining hDescribed] at hInside
      have hAdvance : advance descriptor position (program.drop (position + 1)) =
          .error .realPosition := by
        rw [advance, hBlock, hSize]
        simp only [hInside, if_true]
      rw [scanFrom_described tally hDescribed, hCost]
      simp only [hAdvance]
  | realEnd descriptor _ size hDescribed hCost hBlock hSize hBehind =>
      rw [hRemaining hDescribed] at hBehind
      have hAdvance : advance descriptor position (program.drop (position + 1)) =
          .ok .finish := by
        rw [advance, hBlock, hSize]
        simp only [hBehind, Bool.false_eq_true, if_false]
      rw [scanFrom_described tally hDescribed, hCost]
      simp only [hAdvance]

/-- At every position the scan halts or has an instruction to step over. -/
theorem halts_or_steps (table : Table) (program : List UInt8) (position : Nat) (tally : Tally) :
    (∃ outcome, Halts table program position tally outcome) ∨
      ∃ descriptor size next, InstructionAt table program position descriptor size ∧
        tally.add? descriptor = some next := by
  cases hOpcode : program[position]? with
  | none => exact .inl ⟨_, .finished (List.getElem?_eq_none_iff.mp hOpcode)⟩
  | some opcode =>
      have hDrop := drop_eq_cons hOpcode
      cases hGet : table.get? opcode with
      | none => exact .inl ⟨_, .invalidInstruction opcode hOpcode hGet⟩
      | some descriptor =>
          have hDescribed : DescribedAt table program position descriptor :=
            ⟨opcode, hOpcode, hGet⟩
          cases hCost : tally.add? descriptor with
          | none => exact .inl ⟨_, .costOverflow descriptor hDescribed hCost⟩
          | some next =>
              cases hBlock : descriptor.block with
              | some kind =>
                  have hMeasured :=
                    ConstBlock.measure_eq_ok_iff_blockForm kind opcode (program.drop (position + 1))
                  rw [← hDrop] at hMeasured
                  cases hMeasure : ConstBlock.measure kind (program.drop (position + 1)) with
                  | ok size =>
                      obtain ⟨block, rest, hBytes, hForm, _⟩ := (hMeasured size).mp hMeasure
                      exact .inr ⟨descriptor, _, next,
                        ⟨hDescribed, .block kind block rest hBlock hBytes hForm⟩, hCost⟩
                  | error fault =>
                      refine .inl ⟨_, .undecodableBlock descriptor next kind fault hDescribed hCost
                        hBlock ?_ hMeasure⟩
                      intro block rest hBytes hForm
                      have hOk := (hMeasured block.length).mpr ⟨block, rest, hBytes, hForm, rfl⟩
                      rw [hMeasure] at hOk
                      cases hOk
              | none =>
                  cases hSize : descriptor.size with
                  | integer size =>
                      have hPos := descriptor.size_pos hBlock
                      rw [hSize, Quantity.less_integer, decide_eq_false_iff_not] at hPos
                      have hNat : descriptor.size = .integer (size.toNat : Int) := by
                        rw [hSize]
                        congr 1
                        omega
                      exact .inr ⟨descriptor, _, next,
                        ⟨hDescribed, .fixed size.toNat hBlock hNat⟩, hCost⟩
                  | real size =>
                      cases hLess : Quantity.less (.real size)
                          (.integer (program.length - position : Nat)) with
                      | true =>
                          exact .inl ⟨_, .realPosition descriptor next size hDescribed hCost hBlock
                            hSize hLess⟩
                      | false =>
                          exact .inl ⟨_, .realEnd descriptor next size hDescribed hCost hBlock
                            hSize hLess⟩

/-! ### A whole scan -/

theorem Path.scanFrom_eq {table : Table} {program : List UInt8} {start stop : Nat}
    {steps : List Placed} (hPath : Path table program start steps stop) (tally final : Tally)
    (hTally : tally.after? steps = some final) :
    scanFrom table program start tally = scanFrom table program stop final := by
  induction hPath generalizing tally with
  | nil position =>
      have hSame : tally = final := Option.some.inj hTally
      rw [hSame]
  | cons hInstruction hRest ih =>
      rw [Tally.after?, Option.bind_eq_some_iff] at hTally
      obtain ⟨next, hCost, hAfter⟩ := hTally
      rw [hInstruction.scanFrom_eq hCost]
      exact ih next hAfter

theorem exists_halting_path (table : Table) (program : List UInt8) (start : Nat) (tally : Tally) :
    ∃ steps stop final outcome, Path table program start steps stop ∧
      tally.after? steps = some final ∧ Halts table program stop final outcome := by
  -- Every instruction has a byte, so the bytes that are left decrease from step to step.
  induction hLeft : program.length - start using Nat.strong_induction_on
    generalizing start tally with
  | _ left ih =>
      rcases halts_or_steps table program start tally with
        ⟨outcome, hHalts⟩ | ⟨descriptor, size, next, hInstruction, hCost⟩
      · exact ⟨[], start, tally, outcome, .nil start, rfl, hHalts⟩
      · have hInside := hInstruction.described.lt_length
        have hPos := hInstruction.occupies.pos
        obtain ⟨steps, stop, final, outcome, hPath, hAfter, hHalts⟩ :=
          ih (program.length - (start + size)) (by omega) (start + size) next rfl
        refine ⟨⟨start, descriptor⟩ :: steps, stop, final, outcome, .cons hInstruction hPath, ?_,
          hHalts⟩
        rw [Tally.after?, hCost]
        exact hAfter

/-- A scan ends with an outcome exactly if a path leads to where it halts with it. -/
theorem scanFrom_eq_iff (table : Table) (program : List UInt8) (start : Nat) (tally : Tally)
    (outcome : Except Failure Tally) :
    scanFrom table program start tally = outcome ↔
      ∃ steps stop final, Path table program start steps stop ∧
        tally.after? steps = some final ∧ Halts table program stop final outcome := by
  constructor
  · intro hScan
    obtain ⟨steps, stop, final, other, hPath, hAfter, hHalts⟩ :=
      exists_halting_path table program start tally
    have hSame : outcome = other := by
      rw [← hScan, hPath.scanFrom_eq tally final hAfter, hHalts.scanFrom_eq]
    rw [hSame]
    exact ⟨steps, stop, final, hPath, hAfter, hHalts⟩
  · rintro ⟨steps, stop, final, hPath, hAfter, hHalts⟩
    rw [hPath.scanFrom_eq tally final hAfter, hHalts.scanFrom_eq]

/-! ### Segmentation of a program -/

/-- The instructions of a program from a position on, up to its end or beyond it. -/
structure Segmentation (table : Table) (program : List UInt8) (start : Nat) (steps : List Placed)
    (stop : Nat) : Prop where
  path : Path table program start steps stop
  ended : program.length ≤ stop

theorem Occupies.unique {descriptor : Descriptor} {bytes : List UInt8} {left right : Nat}
    (hLeft : Occupies descriptor bytes left) (hRight : Occupies descriptor bytes right) :
    left = right := by
  cases hLeft with
  | fixed _ hBlock hSize =>
      cases hRight with
      | fixed _ _ hOther =>
          rw [hSize] at hOther
          exact Int.ofNat.inj (Quantity.integer.inj hOther)
      | block kind block rest hOther =>
          rw [hBlock] at hOther
          cases hOther
  | block kind block rest hBlock hBytes hForm =>
      cases hRight with
      | fixed _ hOther =>
          rw [hBlock] at hOther
          cases hOther
      | block otherKind other otherRest hOther hOtherBytes hOtherForm =>
          rw [hBlock] at hOther
          cases hOther
          cases hForm with
          | intro opcode body hBody =>
              -- Both blocks start with the same opcode, so one measurement finds both sizes.
              have hMeasure := ConstBlock.measure_eq_ok_iff_blockForm kind opcode (body ++ rest)
              have hFirst := (hMeasure (opcode :: body).length).mpr
                ⟨opcode :: body, rest, rfl, .intro opcode body hBody, rfl⟩
              have hSecond := (hMeasure other.length).mpr
                ⟨other, otherRest, hBytes.symm.trans hOtherBytes, hOtherForm, rfl⟩
              rw [hFirst] at hSecond
              exact Except.ok.inj hSecond

theorem InstructionAt.unique {table : Table} {program : List UInt8} {position size length : Nat}
    {descriptor other : Descriptor}
    (hInstruction : InstructionAt table program position descriptor size)
    (hOther : InstructionAt table program position other length) :
    descriptor = other ∧ size = length := by
  have hDescriptor := hInstruction.described.unique hOther.described
  subst hDescriptor
  exact ⟨rfl, hInstruction.occupies.unique hOther.occupies⟩

theorem Segmentation.unique {table : Table} {program : List UInt8} {start : Nat}
    {steps others : List Placed} {stop otherStop : Nat}
    (hSteps : Segmentation table program start steps stop)
    (hOthers : Segmentation table program start others otherStop) :
    steps = others ∧ stop = otherStop := by
  obtain ⟨hPath, hEnded⟩ := hSteps
  obtain ⟨hOtherPath, hOtherEnded⟩ := hOthers
  induction hPath generalizing others with
  | nil position =>
      cases hOtherPath with
      | nil => exact ⟨rfl, rfl⟩
      | cons hInstruction =>
          have hInside := hInstruction.described.lt_length
          omega
  | cons hInstruction hRest ih =>
      cases hOtherPath with
      | nil =>
          have hInside := hInstruction.described.lt_length
          omega
      | cons hOther hOtherRest =>
          obtain ⟨hDescriptor, hSize⟩ := hInstruction.unique hOther
          subst hDescriptor hSize
          obtain ⟨hTail, hStop⟩ := ih hEnded hOtherRest
          exact ⟨by rw [hTail], hStop⟩

/-- The positions of a path, and where it stops, increase strictly from its start. -/
theorem Path.positions {table : Table} {program : List UInt8} {start stop : Nat}
    {steps : List Placed} (hPath : Path table program start steps stop) :
    (steps.map Placed.position ++ [stop]).head? = some start ∧
      (steps.map Placed.position ++ [stop]).Pairwise (· < ·) ∧
      ∀ placed ∈ steps, DescribedAt table program placed.position placed.descriptor := by
  induction hPath with
  | nil position => simp
  | @cons position size stop descriptor rest hInstruction hRest ih =>
      obtain ⟨hHead, hIncreasing, hDescribed⟩ := ih
      have hPos := hInstruction.occupies.pos
      refine ⟨rfl, ?_, ?_⟩
      · rw [List.map_cons, List.cons_append, List.pairwise_cons]
        refine ⟨?_, hIncreasing⟩
        intro later hLater
        -- All later positions lie at or behind the next one.
        have hNext : position + size ≤ later := by
          obtain ⟨tail, hTail⟩ := List.head?_eq_some_iff.mp hHead
          rw [hTail] at hLater hIncreasing
          rcases List.mem_cons.mp hLater with hSame | hBehind
          · exact Nat.le_of_eq hSame.symm
          · exact Nat.le_of_lt ((List.pairwise_cons.mp hIncreasing).1 later hBehind)
        simp only
        omega
      · intro placed hPlaced
        rcases List.mem_cons.mp hPlaced with hSame | hTail
        · rw [hSame]
          exact hInstruction.described
        · exact hDescribed placed hTail

/-- Only a last instruction of fixed size reaches beyond the end; a block stays within. -/
theorem Path.last_fixed_of_overrun {table : Table} {program : List UInt8} {start stop : Nat}
    {steps : List Placed} (hPath : Path table program start steps stop)
    (hStart : start ≤ program.length) (hOverrun : program.length < stop) :
    ∃ last, steps.getLast? = some last ∧ last.descriptor.block = none := by
  induction hPath with
  | nil position => omega
  | @cons position size stop descriptor rest hInstruction hRest ih =>
      by_cases hNext : position + size ≤ program.length
      · obtain ⟨last, hLast, hFixed⟩ := ih hNext hOverrun
        refine ⟨last, ?_, hFixed⟩
        rw [List.getLast?_cons, hLast]
        rfl
      · cases hRest with
        | cons hBehind =>
            have hInside := hBehind.described.lt_length
            omega
        | nil =>
            refine ⟨⟨position, descriptor⟩, rfl, ?_⟩
            cases hInstruction.occupies with
            | fixed _ hBlock => exact hBlock
            | block kind block tail hBlock hBytes =>
                have hLength := congrArg List.length hBytes
                rw [List.length_drop, List.length_append] at hLength
                omega

end LogicSignature.Program
