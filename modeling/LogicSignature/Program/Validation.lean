import LogicSignature.Program.Scan

/-
The check of a program: version, length, scan and cost, in this order. The first gate that fails is
the answer; a program that passes all of them gets a report.
-/

namespace LogicSignature.Program

/-- The network's limit on the bytes of a program and its arguments. -/
def defaultMaxLength : Int := 1000

/-- The network's limit on the cost of a program. -/
def defaultMaxCost : Int := 20000

/-- Ceilings on length and cost. -/
structure Limits where
  maxLength : Int := defaultMaxLength
  maxCost : Int := defaultMaxCost
deriving DecidableEq, Repr

/-- The facts about a program that passed every gate. -/
structure Report where
  version : Nat
  length : Nat
  cost : Quantity
  instructions : Nat
deriving DecidableEq, Repr

/-- The number of bytes of a program and its arguments. -/
def totalLength (program : List UInt8) (arguments : List (List UInt8)) : Nat :=
  arguments.foldr (fun argument total => argument.length + total) program.length

/-- Runs every gate over a program, in order. -/
def check (table : Opcode.Table) (limits : Limits) (program : List UInt8)
    (arguments : List (List UInt8)) : Except Failure Report :=
  match Varint.decode program with
  | .exhausted | .malformed _ => .error (.rejected .malformedVersion)
  | .decoded version start =>
    if Quantity.less table.evalMaxVersion (.integer version) then
      .error (.rejected (.unsupportedVersion version table.evalMaxVersion))
    else
      let length := totalLength program arguments
      if limits.maxLength < (length : Int) then
        .error (.rejected (.tooLong length limits.maxLength))
      else
        match scan table start 0 .start (program.drop start) with
        | .error failure => .error failure
        | .ok tally =>
          if Quantity.less (.integer limits.maxCost) tally.cost then
            .error (.rejected (.tooCostly tally.cost limits.maxCost))
          else .ok ⟨version, length, tally.cost, tally.instructions⟩

/-- Checks a program, and puts a failure into words. -/
def validate (table : Opcode.Table) (limits : Limits) (program : List UInt8)
    (arguments : List (List UInt8)) : Except Failure Report :=
  match check table limits program arguments with
  | .ok report => .ok report
  | .error failure => .error failure.worded

end LogicSignature.Program
