import LogicSignature.LangSpec.Fault

/-
Documents without violations. The checks of such a document bound every number that is read from it,
so its specification has counts where counts are asked for. Whether a count was written as an
integer or as a real the checks leave open.
-/

namespace LogicSignature

/-- A number without fraction that is not negative. -/
structure Quantity.IsCount (quantity : Quantity) : Prop where
  integral : quantity.isIntegral = true
  nonneg : quantity.less (.integer 0) = false

/-- An operation within the bounds of the schema. -/
structure Operation.Checked (operation : Operation) : Prop where
  opcode : operation.opcode.IsCount
  opcode_le : Quantity.less (.integer 255) operation.opcode = false
  cost : operation.cost.IsCount
  size : operation.size.IsCount

namespace LangSpec

/-! ### No violation at a place -/

theorem atPlace_eq_nil_iff (path : List Step) (constraints : List Constraint) (value : Value) :
    atPlace path constraints value = [] ↔
      ∀ constraint ∈ constraints, constraint.holds value = true := by
  rw [atPlace, List.map_eq_nil_iff, List.filter_eq_nil_iff]
  simp only [Bool.not_eq_true', Bool.not_eq_false]

theorem atField_eq_nil_iff (path : List Step) (name : Text) (value : Value)
    (check : List Step → Value → List Violation) :
    atField path name value check = [] ↔
      ∀ part, value.field? name = some part → check (path ++ [.field name]) part = [] := by
  rw [atField]
  cases value.field? name with
  | none => simp
  | some part => simp

theorem exists_check_eq_nil_of_mem {path : List Step}
    {check : List Step → Value → List Violation} {index : Nat} {items : List Value} {item : Value}
    (hNone : itemViolations path check index items = []) (hMem : item ∈ items) :
    ∃ place, check place item = [] := by
  induction items generalizing index with
  | nil => cases hMem
  | cons first rest ih =>
      rw [itemViolations, List.append_eq_nil_iff] at hNone
      rcases List.mem_cons.mp hMem with hFirst | hRest
      · rw [hFirst]
        exact ⟨_, hNone.1⟩
      · exact ih hNone.2 hRest

theorem violations_eq_nil_iff (document : Value) :
    violations document = [] ↔ unorderedViolations document = [] := by
  rw [violations, ← List.length_eq_zero_iff, List.length_mergeSort, List.length_eq_zero_iff]

theorem exists_field_of_holds {value : Value} {name : Text}
    (hObject : (Constraint.kind .object).holds value = true)
    (hRequired : (Constraint.required name).holds value = true) :
    ∃ part, value.field? name = some part := by
  cases value with
  | record fields => exact Option.isSome_iff_exists.mp hRequired
  | _ => cases hObject

/-! ### Numbers of a checked document -/

theorem exists_count_of_holds {value : Value}
    (hInteger : (Constraint.kind .integer).holds value = true)
    (hMinimum : (Constraint.minimum 0).holds value = true) :
    ∃ number, value.quantity? = some number ∧ number.IsCount := by
  rw [Constraint.holds, Kind.admits] at hInteger
  rw [Constraint.holds] at hMinimum
  cases hNumber : value.quantity? with
  | none =>
      rw [hNumber] at hInteger
      cases hInteger
  | some number =>
      rw [hNumber] at hInteger hMinimum
      exact ⟨number, rfl, hInteger, Bool.not_eq_true' _ ▸ hMinimum⟩

/-- A required number that is checked to be a count is read as one, and the other constraints on it
hold too. -/
theorem quantityField_checked {path : List Step} {name : Text} {value : Value}
    {constraints : List Constraint} (otherwise : Quantity)
    (hObject : (Constraint.kind .object).holds value = true)
    (hRequired : (Constraint.required name).holds value = true)
    (hCount : nonNegativeInteger ⊆ constraints)
    (hNone : atField path name value (atPlace · constraints ·) = []) :
    (quantityField name value otherwise).IsCount ∧
      ∃ part, part.quantity? = some (quantityField name value otherwise) ∧
        ∀ constraint ∈ constraints, constraint.holds part = true := by
  obtain ⟨part, hPart⟩ := exists_field_of_holds hObject hRequired
  have hHolds := (atPlace_eq_nil_iff _ _ _).mp ((atField_eq_nil_iff _ _ _ _).mp hNone part hPart)
  obtain ⟨number, hNumber, hIsCount⟩ :=
    exists_count_of_holds (hHolds _ (hCount (by decide))) (hHolds _ (hCount (by decide)))
  have hField : quantityField name value otherwise = number := by
    rw [quantityField, hPart, Option.bind_some, hNumber, Option.getD_some]
  rw [hField]
  exact ⟨hIsCount, part, hNumber, hHolds⟩

theorem checked_operationOf {path : List Step} {value : Value}
    (hNone : operationViolations path value = []) : (operationOf value).Checked := by
  simp only [operationViolations, List.append_eq_nil_iff] at hNone
  obtain ⟨⟨⟨⟨hPlace, hOpcode⟩, _⟩, hCost⟩, hSize⟩ := hNone
  have hHolds := (atPlace_eq_nil_iff _ _ _).mp hPlace
  have hObject := hHolds (.kind .object) (by decide)
  obtain ⟨hOpcodeCount, part, hPart, hPartHolds⟩ :=
    quantityField_checked (.integer 0) hObject (hHolds (.required "Opcode") (by decide))
      (by decide) hOpcode
  -- The greatest opcode is the one constraint beyond those of a count.
  have hMaximum := hPartHolds (.maximum 255) (by decide)
  rw [Constraint.holds, hPart] at hMaximum
  exact
    { opcode := hOpcodeCount
      opcode_le := Bool.not_eq_true' _ ▸ hMaximum
      cost := (quantityField_checked (.integer 0) hObject (hHolds (.required "Cost") (by decide))
        (List.Subset.refl _) hCost).1
      size := (quantityField_checked (.integer 0) hObject (hHolds (.required "Size") (by decide))
        (List.Subset.refl _) hSize).1 }

theorem checked_of_mem_operationsOf {document : Value} (hValid : violations document = [])
    {operation : Operation} (hMem : operation ∈ operationsOf document) : operation.Checked := by
  rw [violations_eq_nil_iff] at hValid
  simp only [unorderedViolations, List.append_eq_nil_iff] at hValid
  obtain ⟨_, hOperations⟩ := hValid
  rw [operationsOf] at hMem
  cases hField : document.field? "Ops" with
  | none =>
      rw [hField] at hMem
      cases hMem
  | some part =>
      rw [hField] at hMem
      cases part with
      | list items =>
          have hItems := (atField_eq_nil_iff _ _ _ _).mp hOperations _ hField
          rw [operationListViolations, List.append_eq_nil_iff] at hItems
          obtain ⟨item, hItem, hOperation⟩ := List.mem_map.mp hMem
          obtain ⟨place, hPlace⟩ := exists_check_eq_nil_of_mem hItems.2 hItem
          rw [← hOperation]
          exact checked_operationOf hPlace
      | _ => cases hMem

/-! ### Reading a document -/

/-- The specification that is read from a document when it has no violations. -/
def specOf (document : Value) (source : Text) : LangSpec :=
  { evalMaxVersion := quantityField "EvalMaxVersion" document (.integer 0)
    logicSigVersion := quantityField "LogicSigVersion" document
      (quantityField "EvalMaxVersion" document (.integer 0))
    operations := operationsOf document
    source }

theorem parse_of_valid {document : Value} (hValid : violations document = []) (source : Text) :
    parse document source = .ok (specOf document source) := by
  rw [parse, ofDocument, hValid]
  rfl

theorem parse_of_invalid {document : Value} (hFound : violations document ≠ []) (source : Text) :
    parse document source = .error (.invalid source (violations document)) := by
  rw [parse, ofDocument]
  cases hList : violations document with
  | nil => exact absurd hList hFound
  | cons first rest => rfl

/-- A document without violations gives a specification, whose numbers are all counts. -/
theorem exists_parse_eq_ok {document : Value} (hValid : violations document = []) (source : Text) :
    ∃ spec, parse document source = .ok spec ∧ spec.evalMaxVersion.IsCount ∧
      ∀ operation ∈ spec.operations, operation.Checked := by
  have hVersion : (quantityField "EvalMaxVersion" document (.integer 0)).IsCount := by
    have hUnordered := (violations_eq_nil_iff document).mp hValid
    simp only [unorderedViolations, List.append_eq_nil_iff] at hUnordered
    obtain ⟨⟨⟨hPlace, hVersion⟩, _⟩, _⟩ := hUnordered
    have hHolds := (atPlace_eq_nil_iff _ _ _).mp hPlace
    exact (quantityField_checked (.integer 0) (hHolds (.kind .object) (by decide))
      (hHolds (.required "EvalMaxVersion") (by decide)) (List.Subset.refl _) hVersion).1
  exact ⟨_, parse_of_valid hValid source, hVersion,
    fun operation hMem => checked_of_mem_operationsOf hValid hMem⟩

end LangSpec

end LogicSignature
