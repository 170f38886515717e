import LogicSignature.Proofs.IntegerTables

/-
Refusals for an instruction that cannot be stepped over, and their words.

The message of such a refusal shows positions in the program, indices of entries and the length of a
constant. Every entry that was walked has a byte, and a length has 64 bits, so all of these numbers
can be written unless the program itself is longer than any number that can be.
-/

namespace LogicSignature

namespace ConstBlock

/-- What a fault of a block at a position shows stays below a bound. -/
def Fault.ShowsBelow (position bound : Nat) (fault : Fault) : Prop :=
  ∀ number ∈ fault.numbers position, number.natAbs < bound

theorem offset_below {position offset bound : Nat} (hOffset : position + offset < bound) :
    ∀ number ∈ [(position : Int) + (offset : Int)], number.natAbs < bound := by
  rw [List.forall_mem_singleton]
  omega

theorem Fault.showsBelow_of_index {position bound index : Nat} {reason : Reason}
    (hIndex : index < bound) (hReason : ∀ number ∈ reason.numbers position, number.natAbs < bound) :
    Fault.ShowsBelow position bound ⟨some index, reason⟩ := by
  intro number hNumber
  rcases List.mem_cons.mp hNumber with hSame | hShown
  · rw [hSame]
    exact hIndex
  · exact hReason number hShown

theorem entries_showsBelow (kind : BlockKind) {position bound : Nat} (hBound : 2 ^ 64 ≤ bound)
    {count index size : Nat} {rest : List UInt8} {fault : Fault} (hIndex : index ≤ size)
    (hRoom : position + size + rest.length < bound)
    (hError : entries kind count index size rest = .error fault) :
    fault.ShowsBelow position bound := by
  induction count generalizing index size rest with
  | zero => cases hError
  | succ count ih =>
      rw [entries] at hError
      cases hEmpty : rest.isEmpty with
      | true =>
          rw [hEmpty, if_pos rfl] at hError
          cases hError
          exact Fault.showsBelow_of_index (by omega) (List.forall_mem_nil _)
      | false =>
          rw [hEmpty, if_neg Bool.false_ne_true] at hError
          cases hDecode : Varint.decode rest with
          | exhausted =>
              rw [hDecode] at hError
              cases hError
              exact Fault.showsBelow_of_index (by omega) (offset_below (by omega))
          | malformed examined =>
              rw [hDecode] at hError
              cases hError
              exact Fault.showsBelow_of_index (by omega) (offset_below (by omega))
          | decoded number length =>
              obtain ⟨encoding, tail, hRest, hSpells, hLength⟩ :=
                (Varint.decode_eq_decoded_iff _ _ _).mp hDecode
              have hPos := hSpells.length_pos
              have hNumber := hSpells.number_lt
              have hTotal : rest.length = length + tail.length := by
                rw [hRest, List.length_append, hLength]
              rw [hDecode] at hError
              cases kind with
              | integers =>
                  apply ih (by omega) _ hError
                  rw [List.length_drop]
                  omega
              | bytes =>
                  by_cases hLong : (rest.drop length).length < number
                  · simp only [if_pos hLong] at hError
                    cases hError
                    exact Fault.showsBelow_of_index (by omega)
                      (List.forall_mem_singleton.mpr (by omega))
                  · simp only [if_neg hLong] at hError
                    rw [List.length_drop] at hLong
                    apply ih (by omega) _ hError
                    rw [List.length_drop]
                    omega

theorem measure_showsBelow {kind : BlockKind} {position bound : Nat} (hBound : 2 ^ 64 ≤ bound)
    {body : List UInt8} {fault : Fault} (hRoom : position + 1 + body.length < bound)
    (hError : measure kind body = .error fault) : fault.ShowsBelow position bound := by
  rw [measure] at hError
  cases hDecode : Varint.decode body with
  | exhausted =>
      rw [hDecode] at hError
      cases hError
      exact offset_below (by omega)
  | malformed examined =>
      rw [hDecode] at hError
      cases hError
      exact offset_below (by omega)
  | decoded count length =>
      have hInside := Varint.length_le_of_decode_eq hDecode
      rw [hDecode] at hError
      apply entries_showsBelow kind hBound (Nat.zero_le _) _ hError
      rw [List.length_drop]
      omega

end ConstBlock

namespace Program

open Opcode (Descriptor Table)

/-- A refusal for a reason. The reason is given in words unless the program has so many bytes that
their number cannot be written. -/
structure RefusedFor (table : Table) (limits : Limits) (program : List UInt8)
    (arguments : List (List UInt8)) (rejection : Rejection) : Prop where
  answer : validate table limits program arguments = .error (Failure.worded (.rejected rejection))
  inWords : program.length < Numeral.writableBound →
    validate table limits program arguments = .error (.rejected rejection)

/-- Rejections for an instruction that cannot be stepped over. -/
inductive Rejection.IsStructural : Rejection → Prop
  | invalidInstruction (opcode : UInt8) (position : Nat) :
      IsStructural (.invalidInstruction opcode position)
  | undecodableBlock (kind : BlockKind) (position : Int) (fault : ConstBlock.Fault) :
      IsStructural (.undecodableBlock kind position fault)

theorem two_pow_le_writableBound : 2 ^ 64 ≤ Numeral.writableBound := by decide +kernel

theorem isWritable_of_below {number : Int} (hNumber : number.natAbs < Numeral.writableBound) :
    Numeral.isWritable number = true := decide_eq_true hNumber

theorem isWritable_undecodableBlock {kind : BlockKind} {position : Nat} {fault : ConstBlock.Fault}
    (hPosition : position < Numeral.writableBound)
    (hShown : fault.ShowsBelow position Numeral.writableBound) :
    (Rejection.undecodableBlock kind position fault).isWritable = true := by
  rw [Rejection.isWritable, List.all_eq_true]
  intro quantity hQuantity
  rw [Rejection.numbers, List.mem_cons, List.mem_map] at hQuantity
  rcases hQuantity with hSame | ⟨number, hNumber, hSame⟩
  · subst hSame
    exact isWritable_of_below hPosition
  · subst hSame
    exact isWritable_of_below (hShown number hNumber)

theorem isWritable_invalidInstruction (opcode : UInt8) {position : Nat}
    (hPosition : position < Numeral.writableBound) :
    (Rejection.invalidInstruction opcode position).isWritable = true := by
  rw [Rejection.isWritable, List.all_eq_true]
  intro quantity hQuantity
  rw [Rejection.numbers, List.mem_singleton] at hQuantity
  subst hQuantity
  exact isWritable_of_below hPosition

section

variable {table : Table} {program : List UInt8} {evalMaxVersion : Int} {limits : Limits}
  {arguments : List (List UInt8)} {rejection : Rejection}

theorem Rejection.Due.isWritable
    (hDue : rejection.Due table evalMaxVersion limits program arguments)
    (hStructural : rejection.IsStructural) (hLength : program.length < Numeral.writableBound) :
    rejection.isWritable = true := by
  cases hStructural with
  | invalidInstruction opcode position =>
      obtain ⟨_, _, _, _, _, hOpcode, _⟩ := hDue
      have hInside : position < program.length := (List.getElem?_eq_some_iff.mp hOpcode).1
      exact isWritable_invalidInstruction opcode (by omega)
  | undecodableBlock kind position fault =>
      obtain ⟨_, _, offset, _, descriptor, _, _, hPosition, hDescribed, _, _, hFault⟩ := hDue
      have hInside := hDescribed.lt_length
      subst hPosition
      apply isWritable_undecodableBlock (by omega)
      apply ConstBlock.measure_showsBelow two_pow_le_writableBound _ hFault
      rw [List.length_drop]
      omega

theorem Rejection.Due.refusedFor (hTable : table.IsInteger)
    (hVersion : table.evalMaxVersion = .integer evalMaxVersion)
    (hDue : rejection.Due table evalMaxVersion limits program arguments)
    (hStructural : rejection.IsStructural) :
    RefusedFor table limits program arguments rejection := by
  have hAnswer := (validate_eq_error_iff table limits program arguments _).mpr
    (.inl ⟨rejection, hDue.firstFailed hTable hVersion, rfl⟩)
  refine ⟨hAnswer, ?_⟩
  intro hLength
  rw [hAnswer, Failure.worded, hDue.isWritable hStructural hLength, if_pos rfl]

/-- Words are given only for the first gate that fails. -/
theorem firstFailed_of_validate_eq_error
    (hError : validate table limits program arguments = .error (.rejected rejection)) :
    FirstFailed table limits program arguments rejection := by
  rcases (validate_eq_error_iff table limits program arguments _).mp hError with
    ⟨other, hFailed, hWorded⟩ | hInterrupted
  · rw [Failure.worded] at hWorded
    split at hWorded
    · cases hWorded
      exact hFailed
    · cases hWorded
  · cases hInterrupted

theorem due_of_validate_eq_error (hTable : table.IsInteger)
    (hVersion : table.evalMaxVersion = .integer evalMaxVersion)
    (hError : validate table limits program arguments = .error (.rejected rejection)) :
    rejection.Due table evalMaxVersion limits program arguments :=
  (firstFailed_of_validate_eq_error hError).due hTable hVersion

end

end Program

end LogicSignature
