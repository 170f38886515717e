import LogicSignature.Proofs.ExactQuantity
import LogicSignature.Proofs.PathText
import LogicSignature.LangSpec.Fault

/-
The places of a specification document and what is asked of them.

The schema speaks about nine kinds of places: the document, its two versions, its list of
operations, and for each operation the operation itself and its four fields. A violation is a
constraint on a place that the value there breaks. The checks of the document go through all places
that it has.
-/

namespace LogicSignature

/-- The item of a list with an index. -/
def Value.item? (index : Nat) : Value → Option Value
  | .list items => items[index]?
  | _ => none

namespace LangSpec

/-- The part of a value that some steps lead to. -/
def part? : List Step → Value → Option Value
  | [], value => some value
  | .field name :: rest, value => (value.field? name).bind (part? rest)
  | .item index :: rest, value => (value.item? index).bind (part? rest)

theorem part?_append (first second : List Step) (value : Value) :
    part? (first ++ second) value = (part? first value).bind (part? second) := by
  induction first generalizing value with
  | nil => rfl
  | cons step rest ih =>
      cases step with
      | field name =>
          rw [List.cons_append, part?, part?, Option.bind_assoc]
          exact congrArg _ (funext ih)
      | item index =>
          rw [List.cons_append, part?, part?, Option.bind_assoc]
          exact congrArg _ (funext ih)

/-! ### Places -/

/-- A place of a document that the schema speaks about. -/
inductive Place where
  | document
  | evalMaxVersion
  | logicSigVersion
  | operations
  | operation (index : Nat)
  | opcode (index : Nat)
  | name (index : Nat)
  | cost (index : Nat)
  | size (index : Nat)
deriving DecidableEq

namespace Place

def path : Place → List Step
  | document => []
  | evalMaxVersion => [.field "EvalMaxVersion"]
  | logicSigVersion => [.field "LogicSigVersion"]
  | operations => [.field "Ops"]
  | operation index => [.field "Ops", .item index]
  | opcode index => [.field "Ops", .item index, .field "Opcode"]
  | name index => [.field "Ops", .item index, .field "Name"]
  | cost index => [.field "Ops", .item index, .field "Cost"]
  | size index => [.field "Ops", .item index, .field "Size"]

/-- What the schema asks of a place, in its order. -/
def constraints : Place → List Constraint
  | document => [.kind .object, .required "EvalMaxVersion", .required "Ops"]
  | evalMaxVersion => [.kind .integer, .minimum 0]
  | logicSigVersion => [.kind .integer, .minimum 0]
  | operations => [.kind .array]
  | operation _ => [.kind .object, .required "Opcode", .required "Cost", .required "Size"]
  | opcode _ => [.kind .integer, .minimum 0, .maximum 255]
  | name _ => [.kind .string]
  | cost _ => [.kind .integer, .minimum 0]
  | size _ => [.kind .integer, .minimum 0]

/-- The place with a path. -/
def ofPath? : List Step → Option Place
  | [] => some document
  | [.field field] =>
    if field = "EvalMaxVersion" then some evalMaxVersion
    else if field = "LogicSigVersion" then some logicSigVersion
    else some operations
  | [.field _, .item index] => some (operation index)
  | [.field _, .item index, .field field] =>
    if field = "Opcode" then some (opcode index)
    else if field = "Name" then some (name index)
    else if field = "Cost" then some (cost index)
    else some (size index)
  | _ => none

theorem ofPath?_path (place : Place) : ofPath? place.path = some place := by
  cases place <;> rfl

theorem path_injective : Function.Injective path := by
  intro left right hSame
  have hPlaces := congrArg ofPath? hSame
  rwa [ofPath?_path, ofPath?_path, Option.some.injEq] at hPlaces

theorem isPlain_of_mem_path (place : Place) : ∀ step ∈ place.path, step.isPlain = true := by
  rw [← List.all_eq_true]
  cases place <;> rfl

theorem eq_of_pathText_eq {left right : Place}
    (hSame : pathText left.path = pathText right.path) : left = right :=
  path_injective (pathText_inj left.isPlain_of_mem_path right.isPlain_of_mem_path hSame)

theorem constraints_nodup (place : Place) : place.constraints.Nodup := by
  cases place <;> simp only [constraints] <;> decide

end Place

/-! ### Broken constraints -/

/-- Whether a value is of a kind. A number is an integer by what it stands for. -/
def Kind.Describes : Kind → Value → Prop
  | .object, value => ∃ fields, value = .record fields
  | .array, value => ∃ items, value = .list items
  | .string, value => ∃ content, value = .text content
  | .integer, value =>
    ∃ (quantity : Quantity) (number : Int), value = .ofQuantity quantity ∧
      quantity.amount? = some ((number : ℚ) : WithTop ℚ)

/-- A constraint that a value does not meet. Names are required of records only, and bounds are for
numbers only, integral or not. -/
inductive Broken : Constraint → Value → Prop where
  | kind {expected : Kind} {value : Value} (hKind : ¬ expected.Describes value) :
      Broken (.kind expected) value
  | required {name : Text} {fields : List (Text × Value)}
      (hAbsent : ∀ entry ∈ fields, entry.1 ≠ name) : Broken (.required name) (.record fields)
  | minimum {limit : Int} {value : Value} {quantity : Quantity}
      (hNumber : value = .ofQuantity quantity) (hBelow : quantity.Below limit) :
      Broken (.minimum limit) value
  | maximum {limit : Int} {value : Value} {quantity : Quantity}
      (hNumber : value = .ofQuantity quantity) (hAbove : quantity.Above limit) :
      Broken (.maximum limit) value

theorem quantity?_eq_some_iff (value : Value) (quantity : Quantity) :
    value.quantity? = some quantity ↔ value = .ofQuantity quantity := by
  cases value <;> cases quantity <;> simp [Value.quantity?, Value.ofQuantity]

theorem admits_iff_describes (kind : Kind) (value : Value) :
    kind.admits value = true ↔ kind.Describes value := by
  cases kind with
  | object => cases value <;> simp [Kind.admits, Kind.Describes]
  | array => cases value <;> simp [Kind.admits, Kind.Describes]
  | string => cases value <;> simp [Kind.admits, Kind.Describes]
  | integer =>
      simp only [Kind.admits, Kind.Describes, ← quantity?_eq_some_iff]
      cases value.quantity? with
      | none => simp
      | some quantity => simp [Quantity.isIntegral_iff]

theorem lookup_eq_none_iff_absent (name : Text) (fields : List (Text × Value)) :
    fields.lookup name = none ↔ ∀ entry ∈ fields, entry.1 ≠ name := by
  rw [List.lookup_eq_none_iff]
  exact forall₂_congr fun entry _ => bne_iff_ne.trans ne_comm

/-- A test on numbers passes over every other value. -/
theorem numberTest_eq_false_iff (value : Value) (fails : Quantity → Bool) :
    (value.quantity?.elim true fun quantity => !fails quantity) = false ↔
      ∃ quantity, value = .ofQuantity quantity ∧ fails quantity = true := by
  simp only [← quantity?_eq_some_iff]
  cases value.quantity? with
  | none => simp
  | some quantity => simp

theorem holds_eq_false_iff_broken (constraint : Constraint) (value : Value) :
    constraint.holds value = false ↔ Broken constraint value := by
  cases constraint with
  | kind expected =>
      rw [Constraint.holds, ← Bool.not_eq_true, admits_iff_describes]
      constructor
      · exact .kind
      · intro hBroken
        cases hBroken with
        | kind hKind => exact hKind
  | required name =>
      cases value with
      | record fields =>
          rw [Constraint.holds, Option.isSome_eq_false_iff, Option.isNone_iff_eq_none,
            lookup_eq_none_iff_absent]
          constructor
          · exact .required
          · intro hBroken
            cases hBroken with
            | required hAbsent => exact hAbsent
      | _ => exact ⟨nofun, nofun⟩
  | minimum limit =>
      have hTest : (Constraint.minimum limit).holds value =
          value.quantity?.elim true fun quantity => !quantity.less (.integer limit) := by
        rw [Constraint.holds]
        cases value.quantity? <;> rfl
      rw [hTest, numberTest_eq_false_iff]
      constructor
      · rintro ⟨quantity, hNumber, hLess⟩
        exact .minimum hNumber ((quantity.less_integer_iff_below limit).mp hLess)
      · intro hBroken
        cases hBroken with
        | minimum hNumber hBelow =>
            exact ⟨_, hNumber, (Quantity.less_integer_iff_below _ _).mpr hBelow⟩
  | maximum limit =>
      have hTest : (Constraint.maximum limit).holds value =
          value.quantity?.elim true fun quantity => !Quantity.less (.integer limit) quantity := by
        rw [Constraint.holds]
        cases value.quantity? <;> rfl
      rw [hTest, numberTest_eq_false_iff]
      constructor
      · rintro ⟨quantity, hNumber, hLess⟩
        exact .maximum hNumber ((quantity.integer_less_iff_above limit).mp hLess)
      · intro hBroken
        cases hBroken with
        | maximum hNumber hAbove =>
            exact ⟨_, hNumber, (Quantity.integer_less_iff_above _ _).mpr hAbove⟩

/-! ### Going through the places -/

/-- The violations at a place, if the document has the place. -/
def violationsAt (document : Value) (place : Place) : List Violation :=
  (part? place.path document).elim [] (atPlace place.path place.constraints)

theorem mem_violationsAt_iff (document : Value) (place : Place) (violation : Violation) :
    violation ∈ violationsAt document place ↔
      violation.path = place.path ∧ violation.constraint ∈ place.constraints ∧
        part? place.path document = some violation.value ∧
        Broken violation.constraint violation.value := by
  unfold violationsAt
  cases hPart : part? place.path document with
  | none => simp
  | some value =>
      obtain ⟨path, constraint, held⟩ := violation
      simp only [Option.elim_some, atPlace, List.mem_map, List.mem_filter, Bool.not_eq_true',
        holds_eq_false_iff_broken, Violation.mk.injEq, Option.some.injEq]
      constructor
      · rintro ⟨_, ⟨hMember, hBroken⟩, rfl, rfl, rfl⟩
        exact ⟨rfl, hMember, rfl, hBroken⟩
      · rintro ⟨rfl, hMember, rfl, hBroken⟩
        exact ⟨constraint, ⟨hMember, hBroken⟩, rfl, rfl, rfl⟩

theorem violationsAt_eq_atField {document value : Value} (place : Place) {path : List Step}
    {name : Text} (hPath : place.path = path ++ [.field name])
    (hValue : part? path document = some value) :
    violationsAt document place = atField path name value (atPlace · place.constraints ·) := by
  have hPart : part? place.path document = value.field? name := by
    rw [hPath, part?_append, hValue, Option.bind_some, part?]
    cases value.field? name <;> rfl
  rw [violationsAt, hPart]
  unfold atField
  rw [← hPath]
  cases value.field? name with
  | none => rfl
  | some part => rfl

def operationPlaces (index : Nat) : List Place :=
  [.operation index, .opcode index, .name index, .cost index, .size index]

theorem flatMap_operationPlaces {document item : Value} {index : Nat}
    (hItem : part? [.field "Ops", .item index] document = some item) :
    (operationPlaces index).flatMap (violationsAt document) =
      operationViolations [.field "Ops", .item index] item := by
  have hOperation : violationsAt document (.operation index) =
      atPlace [.field "Ops", .item index] (Place.operation index).constraints item := by
    have hPart : part? (Place.operation index).path document = some item := hItem
    rw [violationsAt, hPart]
    rfl
  simp only [operationPlaces, List.flatMap_cons, List.flatMap_nil, List.append_nil, hOperation]
  rw [violationsAt_eq_atField (.opcode index) rfl hItem,
    violationsAt_eq_atField (.name index) rfl hItem,
    violationsAt_eq_atField (.cost index) rfl hItem,
    violationsAt_eq_atField (.size index) rfl hItem]
  simp only [operationViolations, List.append_assoc]
  rfl

theorem itemViolations_eq_flatMap (path : List Step)
    (check : List Step → Value → List Violation) (start : Nat) (items : List Value) :
    itemViolations path check start items =
      (List.range' start items.length).flatMap fun index =>
        ((items[index - start]?).map (check (path ++ [.item index]))).getD [] := by
  induction items generalizing start with
  | nil => rfl
  | cons item rest ih =>
      rw [itemViolations, ih, List.length_cons, List.range'_succ, List.flatMap_cons, Nat.sub_self]
      refine congrArg (check (path ++ [.item start]) item ++ ·) ?_
      refine List.flatMap_congr fun index hIndex => ?_
      have hStart := (List.mem_range'_1.mp hIndex).1
      have hShift : index - start = index - (start + 1) + 1 := by omega
      rw [hShift, List.getElem?_cons_succ]

/-- The number of operations that a document has. -/
def operationCount (document : Value) : Nat :=
  match document.field? "Ops" with
  | some (.list items) => items.length
  | _ => 0

/-- The places of a document, in the order in which they are checked. Fields may be missing. -/
def placesOf (document : Value) : List Place :=
  [.document, .evalMaxVersion, .logicSigVersion, .operations] ++
    (List.range (operationCount document)).flatMap operationPlaces

theorem flatMap_operations (document : Value) :
    violationsAt document .operations ++
        ((List.range (operationCount document)).flatMap operationPlaces).flatMap
          (violationsAt document) =
      atField [] "Ops" document operationListViolations := by
  have hOps : part? [.field "Ops"] document = document.field? "Ops" := by
    rw [part?]
    cases document.field? "Ops" <;> rfl
  have hOperations : part? Place.operations.path document = document.field? "Ops" := hOps
  rw [violationsAt, hOperations, operationCount]
  unfold atField
  cases hField : document.field? "Ops" with
  | none => rfl
  | some value =>
      cases value with
      | list items =>
          have hItem : ∀ index, part? [.field "Ops", .item index] document = items[index]? := by
            intro index
            rw [← List.singleton_append, part?_append, hOps, hField, Option.bind_some]
            change (items[index]?).bind some = _
            cases items[index]? <;> rfl
          rw [List.flatMap_assoc, List.range_eq_range']
          refine congrArg (atPlace [.field "Ops"] [.kind .array] (.list items) ++ ·) ?_
          change (List.range' 0 items.length).flatMap _ =
            itemViolations [.field "Ops"] operationViolations 0 items
          rw [itemViolations_eq_flatMap]
          refine List.flatMap_congr fun index hIndex => ?_
          have hBound : index < items.length := by simpa using List.mem_range'_1.mp hIndex
          have hSome : items[index]? = some items[index] := List.getElem?_eq_getElem hBound
          rw [flatMap_operationPlaces ((hItem index).trans hSome), Nat.sub_zero, hSome]
          rfl
      | _ => rfl

theorem unorderedViolations_eq (document : Value) :
    unorderedViolations document = (placesOf document).flatMap (violationsAt document) := by
  have hWhole : part? [] document = some document := rfl
  rw [placesOf, List.flatMap_append, unorderedViolations, ← flatMap_operations]
  simp only [List.flatMap_cons, List.flatMap_nil, List.append_nil, List.append_assoc]
  rw [violationsAt_eq_atField .evalMaxVersion rfl hWhole,
    violationsAt_eq_atField .logicSigVersion rfl hWhole]
  rfl

end LangSpec

end LogicSignature
