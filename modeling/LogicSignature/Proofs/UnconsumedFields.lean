import Mathlib.Data.List.Forall2
import LogicSignature.Proofs.SpecDocument
import LogicSignature.Program.Validation

/-
Fields of a specification document that nothing reads.

A document is read by two version fields and the list of operations, and an operation by four
fields. What else stands in the records may differ: the violations have the same lines, and where
there is none, the specification is the same, and with it the table and all that is checked against
it. A violation shows the value at its place, but a record that is shown is never one whose other
fields may differ.
-/

namespace LogicSignature.LangSpec

/-- Two values have the same under each of some names, or both have nothing there. -/
def AgreeOn (names : List Text) (left right : Value) : Prop :=
  ∀ name ∈ names, left.field? name = right.field? name

/-- Two operations that differ at most in fields that are not read. -/
inductive AlikeOperation : Value → Value → Prop where
  | same (value : Value) : AlikeOperation value value
  | records {left right : List (Text × Value)}
      (hAgree : AgreeOn ["Opcode", "Name", "Cost", "Size"] (.record left) (.record right)) :
      AlikeOperation (.record left) (.record right)

/-- The same for what stands in the place of the list of operations, if anything does. -/
inductive AlikeOperations : Option Value → Option Value → Prop where
  | same (value : Option Value) : AlikeOperations value value
  | lists {left right : List Value} (hItems : List.Forall₂ AlikeOperation left right) :
      AlikeOperations (some (.list left)) (some (.list right))

/-- The same for documents. -/
inductive Alike : Value → Value → Prop where
  | same (document : Value) : Alike document document
  | records {left right : List (Text × Value)}
      (hVersions : AgreeOn ["EvalMaxVersion", "LogicSigVersion"] (.record left) (.record right))
      (hOperations : AlikeOperations (Value.field? "Ops" (.record left))
        (Value.field? "Ops" (.record right))) :
      Alike (.record left) (.record right)

theorem AlikeOperations.isSome_eq {left right : Option Value}
    (hAlike : AlikeOperations left right) : left.isSome = right.isSome := by
  cases hAlike <;> rfl

/-! ### Lines of violations -/

/-- What is told about a violation: where it is, and its text. -/
def Violation.line (violation : Violation) : List Step × Text :=
  (violation.path, violation.text)

theorem lines_atPlace {left right : Value} (path : List Step) {constraints : List Constraint}
    (hHolds : ∀ constraint ∈ constraints, constraint.holds left = constraint.holds right)
    (hShown : ∀ constraint ∈ constraints, constraint.holds left = false →
      Violation.text ⟨path, constraint, left⟩ = Violation.text ⟨path, constraint, right⟩) :
    (atPlace path constraints left).map Violation.line =
      (atPlace path constraints right).map Violation.line := by
  have hSame : constraints.filter (fun constraint => !constraint.holds left) =
      constraints.filter (fun constraint => !constraint.holds right) :=
    List.filter_congr fun constraint hMember => by rw [hHolds constraint hMember]
  rw [atPlace, atPlace, ← hSame, List.map_map, List.map_map]
  refine List.map_congr_left fun constraint hMember => ?_
  obtain ⟨hMember, hBroken⟩ := List.mem_filter.mp hMember
  exact congrArg (Prod.mk path) (hShown constraint hMember (by simpa using hBroken))

/-- Of a record only its kind and the names in it are asked. -/
theorem lines_atPlace_records (names : List Text) {left right : List (Text × Value)}
    (hNames : ∀ name ∈ names, (Value.field? name (.record left)).isSome =
      (Value.field? name (.record right)).isSome)
    (path : List Step) :
    (atPlace path (.kind .object :: names.map .required) (.record left)).map Violation.line =
      (atPlace path (.kind .object :: names.map .required) (.record right)).map Violation.line := by
  refine lines_atPlace path ?_ ?_
  · intro constraint hMember
    rcases List.mem_cons.mp hMember with rfl | hRequired
    · rfl
    · obtain ⟨name, hName, rfl⟩ := List.mem_map.mp hRequired
      exact hNames name hName
  · intro constraint hMember hBroken
    rcases List.mem_cons.mp hMember with rfl | hRequired
    · cases hBroken
    · obtain ⟨name, hName, rfl⟩ := List.mem_map.mp hRequired
      rfl

theorem atField_congr {left right : Value} {name : Text}
    (hField : left.field? name = right.field? name) (path : List Step)
    (check : List Step → Value → List Violation) :
    atField path name left check = atField path name right check := by
  rw [atField, atField, hField]

theorem lines_operationViolations {left right : Value} (hAlike : AlikeOperation left right)
    (path : List Step) :
    (operationViolations path left).map Violation.line =
      (operationViolations path right).map Violation.line := by
  cases hAlike with
  | same => rfl
  | @records left right hAgree =>
      have hRequired : (atPlace path [.kind .object, .required "Opcode", .required "Cost",
            .required "Size"] (.record left)).map Violation.line =
          (atPlace path [.kind .object, .required "Opcode", .required "Cost",
            .required "Size"] (.record right)).map Violation.line := by
        refine lines_atPlace_records ["Opcode", "Cost", "Size"] ?_ path
        intro name hName
        have hRead : name ∈ (["Opcode", "Name", "Cost", "Size"] : List Text) := by
          simp only [List.mem_cons, List.not_mem_nil, or_false] at hName ⊢
          rcases hName with hName | hName | hName <;> simp [hName]
        rw [hAgree name hRead]
      simp only [operationViolations, List.map_append, hRequired]
      rw [atField_congr (hAgree "Opcode" (by simp)), atField_congr (hAgree "Name" (by simp)),
        atField_congr (hAgree "Cost" (by simp)), atField_congr (hAgree "Size" (by simp))]

theorem lines_itemViolations {left right : List Value}
    (hItems : List.Forall₂ AlikeOperation left right) (path : List Step) (start : Nat) :
    (itemViolations path operationViolations start left).map Violation.line =
      (itemViolations path operationViolations start right).map Violation.line := by
  induction hItems generalizing start with
  | nil => rfl
  | cons hItem _ ih =>
      rw [itemViolations, itemViolations, List.map_append, List.map_append, ih,
        lines_operationViolations hItem]

theorem lines_operationList {left right : Value}
    (hOperations : AlikeOperations (left.field? "Ops") (right.field? "Ops")) :
    (atField [] "Ops" left operationListViolations).map Violation.line =
      (atField [] "Ops" right operationListViolations).map Violation.line := by
  unfold atField
  generalize left.field? "Ops" = leftPart at hOperations
  generalize right.field? "Ops" = rightPart at hOperations
  cases hOperations with
  | same => rfl
  | lists hItems => exact lines_itemViolations hItems _ 0

theorem lines_unorderedViolations {left right : Value} (hAlike : Alike left right) :
    (unorderedViolations left).map Violation.line =
      (unorderedViolations right).map Violation.line := by
  cases hAlike with
  | same => rfl
  | @records left right hVersions hOperations =>
      have hRequired : (atPlace [] [.kind .object, .required "EvalMaxVersion", .required "Ops"]
            (.record left)).map Violation.line =
          (atPlace [] [.kind .object, .required "EvalMaxVersion", .required "Ops"]
            (.record right)).map Violation.line := by
        refine lines_atPlace_records ["EvalMaxVersion", "Ops"] ?_ []
        intro name hName
        rcases List.mem_cons.mp hName with rfl | hName
        · rw [hVersions "EvalMaxVersion" (by simp)]
        · rw [List.mem_singleton.mp hName]
          exact hOperations.isSome_eq
      simp only [unorderedViolations, List.map_append, hRequired]
      rw [atField_congr (hVersions "EvalMaxVersion" (by simp)),
        atField_congr (hVersions "LogicSigVersion" (by simp)), lines_operationList hOperations]

theorem lines_violations {left right : Value} (hAlike : Alike left right) :
    (violations left).map Violation.line = (violations right).map Violation.line := by
  have hSorted : ∀ document, (violations document).map Violation.line =
      ((unorderedViolations document).map Violation.line).mergeSort fun first second =>
        Text.order (pathText first.1) (pathText second.1) != .gt :=
    fun document => List.map_mergeSort fun _ _ _ _ => rfl
  rw [hSorted, hSorted, lines_unorderedViolations hAlike]

theorem texts_violations {left right : Value} (hAlike : Alike left right) :
    (violations left).map Violation.text = (violations right).map Violation.text := by
  have hTexts := congrArg (List.map Prod.snd) (lines_violations hAlike)
  rwa [List.map_map, List.map_map] at hTexts

/-! ### Reading -/

theorem quantityField_congr {left right : Value} {name : Text}
    (hField : left.field? name = right.field? name) (otherwise : Quantity) :
    quantityField name left otherwise = quantityField name right otherwise := by
  rw [quantityField, quantityField, hField]

theorem operationOf_eq_of_alike {left right : Value} (hAlike : AlikeOperation left right) :
    operationOf left = operationOf right := by
  cases hAlike with
  | same => rfl
  | @records left right hAgree =>
      rw [operationOf, operationOf, quantityField_congr (hAgree "Opcode" (by simp)),
        quantityField_congr (hAgree "Cost" (by simp)),
        quantityField_congr (hAgree "Size" (by simp)), textField, textField,
        hAgree "Name" (by simp)]

theorem operationsOf_eq_of_alike {left right : Value}
    (hOperations : AlikeOperations (left.field? "Ops") (right.field? "Ops")) :
    operationsOf left = operationsOf right := by
  unfold operationsOf
  generalize left.field? "Ops" = leftPart at hOperations
  generalize right.field? "Ops" = rightPart at hOperations
  cases hOperations with
  | same => rfl
  | lists hItems =>
      simp only
      induction hItems with
      | nil => rfl
      | cons hItem _ ih => rw [List.map_cons, List.map_cons, ih, operationOf_eq_of_alike hItem]

/-- What can be told of a fault: its message, and the violations that it lists. -/
def Fault.report (fault : Fault) : Text × List Text := (fault.message, fault.violationTexts)

theorem toOption_mapError {ε ε' α : Type} (f : ε → ε') (result : Except ε α) :
    (result.mapError f).toOption = result.toOption := by
  cases result <;> rfl

theorem specOf_eq_of_alike {left right : Value} (hAlike : Alike left right) (source : Text) :
    specOf left source = specOf right source := by
  cases hAlike with
  | same => rfl
  | @records left right hVersions hOperations =>
      rw [specOf, specOf, operationsOf_eq_of_alike hOperations,
        quantityField_congr (hVersions "EvalMaxVersion" (by simp)),
        quantityField_congr (hVersions "LogicSigVersion" (by simp))]

theorem report_parse {left right : Value} (hAlike : Alike left right) (source : Text) :
    (parse left source).mapError Fault.report = (parse right source).mapError Fault.report := by
  have hTexts := texts_violations hAlike
  by_cases hLeft : violations left = []
  · have hRight : violations right = [] := by
      rwa [hLeft, List.map_nil, eq_comm, List.map_eq_nil_iff] at hTexts
    rw [parse_of_valid hLeft, parse_of_valid hRight, specOf_eq_of_alike hAlike]
  · have hRight : violations right ≠ [] := by
      intro hRight
      rw [hRight, List.map_nil, List.map_eq_nil_iff] at hTexts
      exact hLeft hTexts
    rw [parse_of_invalid hLeft, parse_of_invalid hRight]
    simp only [Except.mapError, Fault.report, Fault.message, Fault.violationTexts,
      ← List.head?_map, hTexts]

/-- Fields that are not read have no influence: neither on the list of violations, nor on the
specification or the fault that it is replaced by, nor on the table, nor on any check against it. -/
theorem unconsumed_fields_without_influence {left right : Value} (hAlike : Alike left right)
    (source : Text) :
    (violations left).map Violation.text = (violations right).map Violation.text ∧
      (parse left source).mapError Fault.report = (parse right source).mapError Fault.report ∧
      (parse left source).toOption.map Opcode.Table.ofSpec =
        (parse right source).toOption.map Opcode.Table.ofSpec ∧
      ∀ limits program arguments,
        (parse left source).toOption.map (fun spec => (Opcode.Table.ofSpec spec).map
            (Program.validate · limits program arguments)) =
          (parse right source).toOption.map (fun spec => (Opcode.Table.ofSpec spec).map
            (Program.validate · limits program arguments)) := by
  have hReport := report_parse hAlike source
  have hSpec : (parse left source).toOption = (parse right source).toOption := by
    simpa only [toOption_mapError] using congrArg Except.toOption hReport
  exact ⟨texts_violations hAlike, hReport, by rw [hSpec], fun _ _ _ => by rw [hSpec]⟩

/-- A document that is not valid, with fields that are not read at both levels. -/
def annotatedDocument : Value :=
  .record [("NamedTypes", .list [.null]), ("EvalMaxVersion", .integer 8),
    ("Ops", .list [.record [("Doc", .text "too large"), ("Opcode", .integer 300),
      ("Cost", .integer 1), ("Size", .integer 1), ("Groups", .list [])]])]

/-- The same without them. -/
def bareDocument : Value :=
  .record [("EvalMaxVersion", .integer 8),
    ("Ops", .list [.record [("Opcode", .integer 300), ("Cost", .integer 1), ("Size", .integer 1)]])]

theorem alike_annotated_bare : Alike annotatedDocument bareDocument := by
  refine .records ?_ (.lists (.cons (.records ?_) .nil))
  · intro name hName
    simp only [List.mem_cons, List.not_mem_nil, or_false] at hName
    rcases hName with rfl | rfl <;> rfl
  · intro name hName
    simp only [List.mem_cons, List.not_mem_nil, or_false] at hName
    rcases hName with rfl | rfl | rfl | rfl <;> rfl

theorem unconsumed_fields_of_annotated :
    Alike annotatedDocument bareDocument ∧ violations bareDocument ≠ [] ∧
      (parse annotatedDocument "spec.json").mapError Fault.report =
        (parse bareDocument "spec.json").mapError Fault.report := by
  refine ⟨alike_annotated_bare, ?_,
    (unconsumed_fields_without_influence alike_annotated_bare "spec.json").2.1⟩
  rw [Ne, violations_eq_nil_iff, ← List.isEmpty_iff]
  decide

end LogicSignature.LangSpec
