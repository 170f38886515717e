import LogicSignature.Proofs.ScanPath

/-
What a path depends on.

An instruction depends on its opcode and, if it is a constant block, on the bytes of the block. So a
path of one program is a path of every program that has these bytes, at the same positions or behind
other bytes. All paths from one position run along one row of instructions, so two instructions that
can be reached do not overlap.
-/

namespace LogicSignature.Program

open Opcode (Descriptor Table)

section

variable {table : Table} {program : List UInt8}

/-! ### One instruction in another program -/

theorem DescribedAt.transfer {other : List UInt8} {position target : Nat} {descriptor : Descriptor}
    (hDescribed : DescribedAt table program position descriptor)
    (hOpcode : other[target]? = program[position]?) :
    DescribedAt table other target descriptor := by
  obtain ⟨opcode, hGet, hDescriptor⟩ := hDescribed
  exact ⟨opcode, hOpcode.trans hGet, hDescriptor⟩

/-- An instruction stands wherever its opcode does, with a block as long as its own if it is one. -/
theorem InstructionAt.transfer {other : List UInt8} {position target size : Nat}
    {descriptor : Descriptor} (hInstruction : InstructionAt table program position descriptor size)
    (hOpcode : other[target]? = program[position]?)
    (hBlock : ∀ kind block rest, descriptor.block = some kind →
      program.drop position = block ++ rest → ConstBlock.BlockForm kind block →
      size = block.length →
      ∃ moved tail, other.drop target = moved ++ tail ∧ ConstBlock.BlockForm kind moved ∧
        moved.length = block.length) :
    InstructionAt table other target descriptor size := by
  refine ⟨hInstruction.described.transfer hOpcode, ?_⟩
  cases hInstruction.occupies with
  | fixed _ hFixed hSize => exact .fixed size hFixed hSize
  | block kind block rest hKind hBytes hForm =>
      obtain ⟨moved, tail, hMoved, hMovedForm, hLength⟩ :=
        hBlock kind block rest hKind hBytes hForm rfl
      rw [← hLength]
      exact .block kind moved tail hKind hMoved hMovedForm

theorem getElem?_eq_of_drop_eq {other : List UInt8} {position target : Nat}
    (hDrop : other.drop target = program.drop position) : other[target]? = program[position]? := by
  have hFirst : (other.drop target)[0]? = (program.drop position)[0]? := by rw [hDrop]
  rwa [List.getElem?_drop, List.getElem?_drop, Nat.add_zero, Nat.add_zero] at hFirst

theorem InstructionAt.of_drop_eq {other : List UInt8} {position target size : Nat}
    {descriptor : Descriptor} (hInstruction : InstructionAt table program position descriptor size)
    (hDrop : other.drop target = program.drop position) :
    InstructionAt table other target descriptor size := by
  apply hInstruction.transfer (getElem?_eq_of_drop_eq hDrop)
  intro kind block rest _ hBytes hForm _
  exact ⟨block, rest, hDrop.trans hBytes, hForm, rfl⟩

theorem InstructionAt.append {position size : Nat} {descriptor : Descriptor}
    (hInstruction : InstructionAt table program position descriptor size) (suffix : List UInt8) :
    InstructionAt table (program ++ suffix) position descriptor size := by
  have hInside := hInstruction.described.lt_length
  apply hInstruction.transfer (List.getElem?_append_left hInside)
  intro kind block rest _ hBytes hForm _
  refine ⟨block, rest ++ suffix, ?_, hForm, rfl⟩
  rw [List.drop_append_of_le_length (Nat.le_of_lt hInside), hBytes, List.append_assoc]

theorem InstructionAt.take {position size cut : Nat} {descriptor : Descriptor}
    (hInstruction : InstructionAt table program position descriptor size) (hCut : position < cut)
    (hWhole : descriptor.block ≠ none → position + size ≤ cut) :
    InstructionAt table (program.take cut) position descriptor size := by
  apply hInstruction.transfer (List.getElem?_take_of_lt hCut)
  intro kind block rest hKind hBytes hForm hSize
  have hRoom : position + size ≤ cut := hWhole (by rw [hKind]; exact Option.some_ne_none kind)
  refine ⟨block, rest.take (cut - position - block.length), ?_, hForm, rfl⟩
  rw [List.drop_take, hBytes, List.take_append, List.take_of_length_le (by omega)]

/-! ### Rows of instructions -/

theorem Path.start_le_stop {start stop : Nat} {steps : List Placed}
    (hPath : Path table program start steps stop) : start ≤ stop := by
  induction hPath with
  | nil position => exact Nat.le_refl position
  | cons hInstruction hRest ih => omega

theorem Path.trans {start middle stop : Nat} {steps others : List Placed}
    (hFirst : Path table program start steps middle)
    (hSecond : Path table program middle others stop) :
    Path table program start (steps ++ others) stop := by
  induction hFirst with
  | nil position => exact hSecond
  | cons hInstruction hRest ih => exact .cons hInstruction (ih hSecond)

theorem Path.split_of_mem {start stop : Nat} {steps : List Placed} {placed : Placed}
    (hPath : Path table program start steps stop) (hPlaced : placed ∈ steps) :
    ∃ before after size, steps = before ++ placed :: after ∧
      Path table program start before placed.position ∧
      InstructionAt table program placed.position placed.descriptor size ∧
      Path table program (placed.position + size) after stop := by
  induction hPath with
  | nil position => cases hPlaced
  | @cons position size stop descriptor rest hInstruction hRest ih =>
      rcases List.mem_cons.mp hPlaced with hSame | hTail
      · subst hSame
        exact ⟨[], rest, size, rfl, .nil position, hInstruction, hRest⟩
      · obtain ⟨before, after, length, hSteps, hBefore, hPlacedAt, hAfter⟩ := ih hTail
        exact ⟨⟨position, descriptor⟩ :: before, after, length, by rw [hSteps, List.cons_append],
          .cons hInstruction hBefore, hPlacedAt, hAfter⟩

/-- Of two paths from one position, one continues where the other one stops. -/
theorem Path.comparable {start middle stop : Nat} {steps others : List Placed}
    (hLeft : Path table program start steps middle)
    (hRight : Path table program start others stop) :
    (∃ between, Path table program middle between stop) ∨
      ∃ between, Path table program stop between middle := by
  induction hLeft generalizing others with
  | nil position => exact .inl ⟨others, hRight⟩
  | cons hInstruction hRest ih =>
      cases hRight with
      | nil => exact .inr ⟨_, .cons hInstruction hRest⟩
      | cons hOther hOtherRest =>
          obtain ⟨hDescriptor, hSize⟩ := hInstruction.unique hOther
          subst hDescriptor hSize
          exact ih hOtherRest

/-- No path stops inside an instruction that another path from the same position reaches. -/
theorem Path.not_inside {start position stop size : Nat} {steps others : List Placed}
    {descriptor : Descriptor} (hPath : Path table program start steps position)
    (hInstruction : InstructionAt table program position descriptor size)
    (hOther : Path table program start others stop) :
    stop ≤ position ∨ position + size ≤ stop := by
  rcases hPath.comparable hOther with ⟨between, hBetween⟩ | ⟨between, hBetween⟩
  · cases hBetween with
    | nil => exact .inl (Nat.le_refl position)
    | cons hSame hRest =>
        obtain ⟨_, hSize⟩ := hInstruction.unique hSame
        subst hSize
        exact .inr hRest.start_le_stop
  · exact .inl hBetween.start_le_stop

/-! ### A path in another program -/

/-- A path stays a path where each of its instructions stays one. -/
theorem Path.transfer {otherTable : Table} {other : List UInt8} {start stop : Nat}
    {steps : List Placed} (hPath : Path table program start steps stop)
    (hEach : ∀ before position descriptor size after,
      steps = before ++ ⟨position, descriptor⟩ :: after →
      Path table program start before position → position + size ≤ stop →
      InstructionAt table program position descriptor size →
      InstructionAt otherTable other position descriptor size) :
    Path otherTable other start steps stop := by
  induction hPath with
  | nil position => exact .nil position
  | @cons position size stop descriptor rest hInstruction hRest ih =>
      have hFirst := hEach [] position descriptor size rest rfl (.nil position)
        hRest.start_le_stop hInstruction
      refine .cons hFirst (ih ?_)
      intro before later following length after hSteps hBefore
      exact hEach (⟨position, descriptor⟩ :: before) later following length after
        (by rw [hSteps, List.cons_append]) (.cons hInstruction hBefore)

theorem Path.append {start stop : Nat} {steps : List Placed}
    (hPath : Path table program start steps stop) (suffix : List UInt8) :
    Path table (program ++ suffix) start steps stop := by
  apply hPath.transfer
  intro _ position descriptor size _ _ _ _ hInstruction
  exact hInstruction.append suffix

theorem Path.take {start stop cut : Nat} {steps : List Placed}
    (hPath : Path table program start steps stop) (hCut : stop ≤ cut) :
    Path table (program.take cut) start steps stop := by
  apply hPath.transfer
  intro _ position descriptor size _ _ _ hStop hInstruction
  have hPos := hInstruction.occupies.pos
  exact hInstruction.take (by omega) (fun _ => by omega)

/-- An instruction behind other bytes. -/
def Placed.relocate (source target : Nat) (placed : Placed) : Placed :=
  ⟨placed.position - source + target, placed.descriptor⟩

theorem drop_relocate (front other bytes : List UInt8) {position : Nat}
    (hFront : front.length ≤ position) :
    (other ++ bytes).drop (position - front.length + other.length) =
      (front ++ bytes).drop position := by
  rw [List.drop_append, List.drop_append, List.drop_eq_nil_of_le (Nat.le_add_left _ _),
    List.drop_eq_nil_of_le hFront, Nat.add_sub_cancel]

/-- A path does not depend on what stands in front of it. -/
theorem Path.relocate {front bytes : List UInt8} {start stop : Nat} {steps : List Placed}
    (hPath : Path table (front ++ bytes) start steps stop) (hFront : front.length ≤ start)
    (other : List UInt8) :
    Path table (other ++ bytes) (start - front.length + other.length)
      (steps.map (Placed.relocate front.length other.length))
      (stop - front.length + other.length) := by
  induction hPath with
  | nil position => exact .nil _
  | @cons position size stop descriptor rest hInstruction hRest ih =>
      have hNext : position + size - front.length + other.length =
          position - front.length + other.length + size := by omega
      have hMoved := hInstruction.of_drop_eq (drop_relocate front other bytes hFront)
      have hBehind := ih (by omega)
      rw [hNext] at hBehind
      exact .cons hMoved hBehind

end

end LogicSignature.Program
