import LogicSignature.Program.Validation
import LogicSignature.Proofs.ScanPath

/-
The gates of a check, in order: version, length, scan, cost.

The scan starts only behind the first two gates, and the cost is looked at only when the scan is
complete, so an instruction that cannot be stepped over is reported however much the ones before it
cost. Besides a rejection a check can end in one other way: the scan is interrupted by numbers of
the table that it cannot work with. Any failure is then put into words, which fails in turn if a
number has too many digits.
-/

namespace LogicSignature.Program

open Opcode (Descriptor Table)

/-- Version and length pass their gates, and the instructions start behind the version. -/
structure Admitted (table : Table) (limits : Limits) (program : List UInt8)
    (arguments : List (List UInt8)) (version start : Nat) : Prop where
  decoded : Varint.decode program = .decoded version start
  supported : Quantity.less table.evalMaxVersion (.integer version) = false
  fits : (totalLength program arguments : Int) ≤ limits.maxLength

/-- The scan reaches a position with a tally. -/
def Reached (table : Table) (program : List UInt8) (start position : Nat) (tally : Tally) : Prop :=
  ∃ steps, Path table program start steps position ∧ Tally.start.after? steps = some tally

/-- The scan steps over all instructions and ends with a tally. -/
def Completed (table : Table) (program : List UInt8) (start : Nat) (final : Tally) : Prop :=
  ∃ position tally, Reached table program start position tally ∧
    Halts table program position tally (.ok final)

inductive Accepted (table : Table) (limits : Limits) (program : List UInt8)
    (arguments : List (List UInt8)) : Report → Prop
  | intro (version start : Nat) (final : Tally)
      (hAdmitted : Admitted table limits program arguments version start)
      (hCompleted : Completed table program start final)
      (hCheap : Quantity.less (.integer limits.maxCost) final.cost = false) :
      Accepted table limits program arguments
        ⟨version, totalLength program arguments, final.cost, final.instructions⟩

/-- The rejection of the first gate that fails. -/
inductive FirstFailed (table : Table) (limits : Limits) (program : List UInt8)
    (arguments : List (List UInt8)) : Rejection → Prop
  | malformedVersion
      (hUndecoded : ∀ version start, Varint.decode program ≠ .decoded version start) :
      FirstFailed table limits program arguments .malformedVersion
  | unsupportedVersion (version start : Nat)
      (hDecoded : Varint.decode program = .decoded version start)
      (hNewer : Quantity.less table.evalMaxVersion (.integer version) = true) :
      FirstFailed table limits program arguments
        (.unsupportedVersion version table.evalMaxVersion)
  | tooLong (version start : Nat) (hDecoded : Varint.decode program = .decoded version start)
      (hSupported : Quantity.less table.evalMaxVersion (.integer version) = false)
      (hLong : limits.maxLength < (totalLength program arguments : Int)) :
      FirstFailed table limits program arguments
        (.tooLong (totalLength program arguments) limits.maxLength)
  | invalidInstruction (version start position : Nat) (tally : Tally) (opcode : UInt8)
      (hAdmitted : Admitted table limits program arguments version start)
      (hReached : Reached table program start position tally)
      (hOpcode : program[position]? = some opcode) (hNone : table.get? opcode = none) :
      FirstFailed table limits program arguments (.invalidInstruction opcode position)
  | undecodableBlock (version start position : Nat) (tally next : Tally) (descriptor : Descriptor)
      (kind : BlockKind) (fault : ConstBlock.Fault)
      (hAdmitted : Admitted table limits program arguments version start)
      (hReached : Reached table program start position tally)
      (hDescribed : DescribedAt table program position descriptor)
      (hCost : tally.add? descriptor = some next) (hBlock : descriptor.block = some kind)
      (hNone : ∀ block rest, program.drop position = block ++ rest →
        ¬ ConstBlock.BlockForm kind block)
      (hFault : ConstBlock.measure kind (program.drop (position + 1)) = .error fault) :
      FirstFailed table limits program arguments (.undecodableBlock kind position fault)
  | tooCostly (version start : Nat) (final : Tally)
      (hAdmitted : Admitted table limits program arguments version start)
      (hCompleted : Completed table program start final)
      (hCostly : Quantity.less (.integer limits.maxCost) final.cost = true) :
      FirstFailed table limits program arguments (.tooCostly final.cost limits.maxCost)

/-- What interrupts the scan of an admitted program: a real size that ends within the program, or a
cost that cannot be added. -/
inductive Interrupted (table : Table) (limits : Limits) (program : List UInt8)
    (arguments : List (List UInt8)) : Failure → Prop
  | realPosition (version start position : Nat) (tally next : Tally) (descriptor : Descriptor)
      (size : Binary64) (hAdmitted : Admitted table limits program arguments version start)
      (hReached : Reached table program start position tally)
      (hDescribed : DescribedAt table program position descriptor)
      (hCost : tally.add? descriptor = some next) (hBlock : descriptor.block = none)
      (hSize : descriptor.size = .real size)
      (hInside : Quantity.less (.real size) (.integer (program.length - position : Nat)) = true) :
      Interrupted table limits program arguments .realPosition
  | costOverflow (version start position : Nat) (tally : Tally) (descriptor : Descriptor)
      (hAdmitted : Admitted table limits program arguments version start)
      (hReached : Reached table program start position tally)
      (hDescribed : DescribedAt table program position descriptor)
      (hCost : tally.add? descriptor = none) :
      Interrupted table limits program arguments .costOverflow

section

variable (table : Table) (limits : Limits) (program : List UInt8) (arguments : List (List UInt8))

/-! ### One gate after the other -/

theorem check_of_undecoded
    (hUndecoded : ∀ version start, Varint.decode program ≠ .decoded version start) :
    check table limits program arguments = .error (.rejected .malformedVersion) := by
  rw [check]
  cases hDecode : Varint.decode program with
  | exhausted => rfl
  | malformed examined => rfl
  | decoded version start => exact absurd hDecode (hUndecoded version start)

theorem check_of_newer {version start : Nat}
    (hDecoded : Varint.decode program = .decoded version start)
    (hNewer : Quantity.less table.evalMaxVersion (.integer version) = true) :
    check table limits program arguments =
      .error (.rejected (.unsupportedVersion version table.evalMaxVersion)) := by
  rw [check, hDecoded]
  simp only [hNewer, if_true]

theorem check_of_long {version start : Nat}
    (hDecoded : Varint.decode program = .decoded version start)
    (hSupported : Quantity.less table.evalMaxVersion (.integer version) = false)
    (hLong : limits.maxLength < (totalLength program arguments : Int)) :
    check table limits program arguments =
      .error (.rejected (.tooLong (totalLength program arguments) limits.maxLength)) := by
  rw [check, hDecoded]
  simp only [hSupported, Bool.false_eq_true, if_false, if_pos hLong]

theorem check_of_scan_error {version start : Nat} {failure : Failure}
    (hAdmitted : Admitted table limits program arguments version start)
    (hScan : scanFrom table program start .start = .error failure) :
    check table limits program arguments = .error failure := by
  rw [scanFrom] at hScan
  rw [check, hAdmitted.decoded]
  simp only [hAdmitted.supported, Bool.false_eq_true, if_false,
    if_neg (Int.not_lt.mpr hAdmitted.fits), hScan]

theorem check_of_scan_ok {version start : Nat} {final : Tally}
    (hAdmitted : Admitted table limits program arguments version start)
    (hScan : scanFrom table program start .start = .ok final) :
    check table limits program arguments =
      if Quantity.less (.integer limits.maxCost) final.cost then
        .error (.rejected (.tooCostly final.cost limits.maxCost))
      else .ok ⟨version, totalLength program arguments, final.cost, final.instructions⟩ := by
  rw [scanFrom] at hScan
  rw [check, hAdmitted.decoded]
  simp only [hAdmitted.supported, Bool.false_eq_true, if_false,
    if_neg (Int.not_lt.mpr hAdmitted.fits), hScan]

theorem scanFrom_start_eq_iff (start : Nat) (outcome : Except Failure Tally) :
    scanFrom table program start .start = outcome ↔
      ∃ position tally, Reached table program start position tally ∧
        Halts table program position tally outcome := by
  rw [scanFrom_eq_iff]
  constructor
  · rintro ⟨steps, position, tally, hPath, hAfter, hHalts⟩
    exact ⟨position, tally, ⟨steps, hPath, hAfter⟩, hHalts⟩
  · rintro ⟨position, tally, ⟨steps, hPath, hAfter⟩, hHalts⟩
    exact ⟨steps, position, tally, hPath, hAfter, hHalts⟩

/-! ### The answer of a check -/

variable {table limits program arguments}

theorem Admitted.check_of_halts {version start position : Nat} {tally : Tally} {failure : Failure}
    (hAdmitted : Admitted table limits program arguments version start)
    (hReached : Reached table program start position tally)
    (hHalts : Halts table program position tally (.error failure)) :
    check table limits program arguments = .error failure := by
  have hScan : scanFrom table program start .start = .error failure :=
    (scanFrom_start_eq_iff table program start _).mpr ⟨position, tally, hReached, hHalts⟩
  exact check_of_scan_error table limits program arguments hAdmitted hScan

theorem FirstFailed.check_eq {rejection : Rejection}
    (hFailed : FirstFailed table limits program arguments rejection) :
    check table limits program arguments = .error (.rejected rejection) := by
  cases hFailed with
  | malformedVersion hUndecoded =>
      exact check_of_undecoded table limits program arguments hUndecoded
  | unsupportedVersion version start hDecoded hNewer =>
      exact check_of_newer table limits program arguments hDecoded hNewer
  | tooLong version start hDecoded hSupported hLong =>
      exact check_of_long table limits program arguments hDecoded hSupported hLong
  | invalidInstruction version start position tally opcode hAdmitted hReached hOpcode hNone =>
      exact hAdmitted.check_of_halts hReached (.invalidInstruction opcode hOpcode hNone)
  | undecodableBlock version start position tally next descriptor kind fault hAdmitted hReached
      hDescribed hCost hBlock hNone hFault =>
      exact hAdmitted.check_of_halts hReached
        (.undecodableBlock descriptor next kind fault hDescribed hCost hBlock hNone hFault)
  | tooCostly version start final hAdmitted hCompleted hCostly =>
      have hScan := (scanFrom_start_eq_iff table program start _).mpr hCompleted
      rw [check_of_scan_ok table limits program arguments hAdmitted hScan, if_pos hCostly]

theorem Interrupted.check_eq {failure : Failure}
    (hInterrupted : Interrupted table limits program arguments failure) :
    check table limits program arguments = .error failure := by
  cases hInterrupted with
  | realPosition version start position tally next descriptor size hAdmitted hReached hDescribed
      hCost hBlock hSize hInside =>
      exact hAdmitted.check_of_halts hReached
        (.realPosition descriptor next size hDescribed hCost hBlock hSize hInside)
  | costOverflow version start position tally descriptor hAdmitted hReached hDescribed hCost =>
      exact hAdmitted.check_of_halts hReached (.costOverflow descriptor hDescribed hCost)

theorem Interrupted.worded_eq {failure : Failure}
    (hInterrupted : Interrupted table limits program arguments failure) :
    failure.worded = failure := by
  cases hInterrupted with
  | realPosition => rfl
  | costOverflow => rfl

theorem Accepted.check_eq {report : Report}
    (hAccepted : Accepted table limits program arguments report) :
    check table limits program arguments = .ok report := by
  cases hAccepted with
  | intro version start final hAdmitted hCompleted hCheap =>
      have hScan := (scanFrom_start_eq_iff table program start _).mpr hCompleted
      rw [check_of_scan_ok table limits program arguments hAdmitted hScan, hCheap]
      rfl

/-- An admitted program passes all gates, or fails at one, or its scan is interrupted. The position
where the scan halts says which. -/
theorem Admitted.answer {version start : Nat}
    (hAdmitted : Admitted table limits program arguments version start) :
    (∃ report, Accepted table limits program arguments report) ∨
      (∃ rejection, FirstFailed table limits program arguments rejection) ∨
      ∃ failure, Interrupted table limits program arguments failure := by
  obtain ⟨position, tally, hReached, hHalts⟩ :=
    (scanFrom_start_eq_iff table program start _).mp rfl
  generalize scanFrom table program start .start = outcome at hHalts
  cases outcome with
  | ok final =>
      have hCompleted : Completed table program start final :=
        ⟨position, tally, hReached, hHalts⟩
      cases hCost : Quantity.less (.integer limits.maxCost) final.cost with
      | true => exact .inr (.inl ⟨_, .tooCostly version start final hAdmitted hCompleted hCost⟩)
      | false => exact .inl ⟨_, .intro version start final hAdmitted hCompleted hCost⟩
  | error failure =>
      cases hHalts with
      | invalidInstruction opcode hOpcode hNone =>
          exact .inr (.inl ⟨_, .invalidInstruction version start position tally opcode hAdmitted
            hReached hOpcode hNone⟩)
      | costOverflow descriptor hDescribed hCost =>
          exact .inr (.inr ⟨_, .costOverflow version start position tally descriptor hAdmitted
            hReached hDescribed hCost⟩)
      | undecodableBlock descriptor next kind fault hDescribed hCost hBlock hNone hFault =>
          exact .inr (.inl ⟨_, .undecodableBlock version start position tally next descriptor kind
            fault hAdmitted hReached hDescribed hCost hBlock hNone hFault⟩)
      | realPosition descriptor next size hDescribed hCost hBlock hSize hInside =>
          exact .inr (.inr ⟨_, .realPosition version start position tally next descriptor size
            hAdmitted hReached hDescribed hCost hBlock hSize hInside⟩)

variable (table limits program arguments)

theorem exists_answer :
    (∃ report, Accepted table limits program arguments report) ∨
      (∃ rejection, FirstFailed table limits program arguments rejection) ∨
      ∃ failure, Interrupted table limits program arguments failure := by
  by_cases hUndecoded : ∀ version start, Varint.decode program ≠ .decoded version start
  · exact .inr (.inl ⟨_, .malformedVersion hUndecoded⟩)
  · push Not at hUndecoded
    obtain ⟨version, start, hDecoded⟩ := hUndecoded
    cases hVersion : Quantity.less table.evalMaxVersion (.integer version) with
    | true => exact .inr (.inl ⟨_, .unsupportedVersion version start hDecoded hVersion⟩)
    | false =>
        by_cases hLong : limits.maxLength < (totalLength program arguments : Int)
        · exact .inr (.inl ⟨_, .tooLong version start hDecoded hVersion hLong⟩)
        · exact Admitted.answer ⟨hDecoded, hVersion, Int.not_lt.mp hLong⟩

theorem check_eq_ok_iff (report : Report) :
    check table limits program arguments = .ok report ↔
      Accepted table limits program arguments report := by
  constructor
  · intro hOk
    rcases exists_answer table limits program arguments with
      ⟨other, hAccepted⟩ | ⟨rejection, hFailed⟩ | ⟨failure, hInterrupted⟩
    · rw [hAccepted.check_eq] at hOk
      exact Except.ok.inj hOk ▸ hAccepted
    · rw [hFailed.check_eq] at hOk
      cases hOk
    · rw [hInterrupted.check_eq] at hOk
      cases hOk
  · exact Accepted.check_eq

/-- A check fails exactly with the rejection of the first gate that fails, or because the scan is
interrupted. -/
theorem check_eq_error_iff (failure : Failure) :
    check table limits program arguments = .error failure ↔
      (∃ rejection, FirstFailed table limits program arguments rejection ∧
        failure = .rejected rejection) ∨
      Interrupted table limits program arguments failure := by
  constructor
  · intro hError
    rcases exists_answer table limits program arguments with
      ⟨report, hAccepted⟩ | ⟨rejection, hFailed⟩ | ⟨other, hInterrupted⟩
    · rw [hAccepted.check_eq] at hError
      cases hError
    · rw [hFailed.check_eq] at hError
      exact .inl ⟨rejection, hFailed, (Except.error.inj hError).symm⟩
    · rw [hInterrupted.check_eq] at hError
      exact .inr (Except.error.inj hError ▸ hInterrupted)
  · rintro (⟨rejection, hFailed, hFailure⟩ | hInterrupted)
    · rw [hFailure, hFailed.check_eq]
    · exact hInterrupted.check_eq

/-! ### The check in words -/

theorem validate_eq_ok_iff (report : Report) :
    validate table limits program arguments = .ok report ↔
      Accepted table limits program arguments report := by
  rw [← check_eq_ok_iff, validate]
  cases check table limits program arguments with
  | ok other => rfl
  | error failure => simp only [reduceCtorEq]

theorem validate_eq_error_iff_check (failure : Failure) :
    validate table limits program arguments = .error failure ↔
      ∃ cause, check table limits program arguments = .error cause ∧ failure = cause.worded := by
  rw [validate]
  cases check table limits program arguments with
  | ok report => simp
  | error cause => simp [eq_comm]

/-- A program is refused with the words of the first gate that fails, or because the scan is
interrupted. -/
theorem validate_eq_error_iff (failure : Failure) :
    validate table limits program arguments = .error failure ↔
      (∃ rejection, FirstFailed table limits program arguments rejection ∧
        failure = Failure.worded (.rejected rejection)) ∨
      Interrupted table limits program arguments failure := by
  rw [validate_eq_error_iff_check]
  constructor
  · rintro ⟨cause, hCheck, hFailure⟩
    rcases (check_eq_error_iff table limits program arguments cause).mp hCheck with
      ⟨rejection, hFailed, hCause⟩ | hInterrupted
    · exact .inl ⟨rejection, hFailed, by rw [hFailure, hCause]⟩
    · rw [hFailure, hInterrupted.worded_eq]
      exact .inr hInterrupted
  · rintro (⟨rejection, hFailed, hFailure⟩ | hInterrupted)
    · exact ⟨_, hFailed.check_eq, hFailure⟩
    · exact ⟨failure, hInterrupted.check_eq, hInterrupted.worded_eq.symm⟩

/-- No words are found exactly if the message of the rejection shows a number that is too long. -/
theorem validate_eq_unwritable_iff :
    validate table limits program arguments = .error .unwritable ↔
      ∃ rejection, FirstFailed table limits program arguments rejection ∧
        rejection.isWritable = false := by
  rw [validate_eq_error_iff]
  constructor
  · rintro (⟨rejection, hFailed, hWorded⟩ | hInterrupted)
    · refine ⟨rejection, hFailed, ?_⟩
      cases hWritable : rejection.isWritable with
      | false => rfl
      | true =>
          rw [Failure.worded, hWritable] at hWorded
          cases hWorded
    · cases hInterrupted
  · rintro ⟨rejection, hFailed, hWritable⟩
    refine .inl ⟨rejection, hFailed, ?_⟩
    rw [Failure.worded, hWritable]
    rfl

theorem validate_eq_interruption_iff {failure : Failure}
    (hFailure : failure = .realPosition ∨ failure = .costOverflow) :
    validate table limits program arguments = .error failure ↔
      Interrupted table limits program arguments failure := by
  rw [validate_eq_error_iff]
  constructor
  · rintro (⟨rejection, _, hWorded⟩ | hInterrupted)
    · rw [Failure.worded] at hWorded
      split at hWorded <;> rcases hFailure with rfl | rfl <;> cases hWorded
    · exact hInterrupted
  · exact .inr

end

end LogicSignature.Program
