import Mathlib.Data.List.Forall2
import Mathlib.Data.List.Sort
import LogicSignature.Proofs.SchemaPlaces
import LogicSignature.Proofs.SpecDocument

/-
The list of the violations of a specification document.

Each constraint that is broken at some place of the document is listed once. The list is in the
order of the path texts, and violations at one place are in the order of the schema; no other list
is so. A document whose list is empty is read into the specification that it describes.
-/

namespace LogicSignature

namespace LangSpec

/-! ### Sorting keeps the order of equals -/

theorem filter_mergeSort {Item : Type} {le : Item → Item → Bool}
    (hTrans : ∀ first second third, le first second → le second third → le first third)
    (hTotal : ∀ first second, le first second || le second first) {chosen : Item → Bool}
    (hChosen : ∀ first second, chosen first → chosen second → le first second)
    (items : List Item) : (items.mergeSort le).filter chosen = items.filter chosen := by
  have hSorted : (items.filter chosen).Pairwise fun first second => le first second := by
    refine List.pairwise_of_forall_mem_list fun first hFirst second hSecond => ?_
    exact hChosen first second (List.mem_filter.mp hFirst).2 (List.mem_filter.mp hSecond).2
  have hKept := (List.sublist_mergeSort hTrans hTotal hSorted List.filter_sublist).filter chosen
  simp only [List.filter_filter, Bool.and_self] at hKept
  refine (hKept.eq_of_length ?_).symm
  exact ((List.mergeSort_perm items le).filter chosen).length_eq.symm

/-! ### The order of violations -/

/-- A violation of a document: a place that the document has, and a constraint on the place that the
value there breaks. -/
def Violates (document : Value) (violation : Violation) : Prop :=
  ∃ place : Place, violation.path = place.path ∧ violation.constraint ∈ place.constraints ∧
    part? place.path document = some violation.value ∧
    Broken violation.constraint violation.value

/-- A violation stands before another: its path text is less, or both are at one place and the
schema has its constraint before the other. -/
def Violation.Precedes (left right : Violation) : Prop :=
  (pathText left.path).codes < (pathText right.path).codes ∨
    ∃ place : Place, left.path = place.path ∧ right.path = place.path ∧
      place.constraints.idxOf left.constraint < place.constraints.idxOf right.constraint

instance : Std.Irrefl Violation.Precedes where
  irrefl violation hSelf := by
    rcases hSelf with hText | ⟨place, _, _, hIndex⟩
    · exact lt_irrefl _ hText
    · exact lt_irrefl _ hIndex

instance : Std.Antisymm Violation.Precedes where
  antisymm left right hLeft hRight := by
    rcases hLeft with hText | ⟨place, hLeftPath, hRightPath, hIndex⟩
    · rcases hRight with hOther | ⟨place, hRightPath, hLeftPath, _⟩
      · exact absurd hOther (lt_asymm hText)
      · rw [hLeftPath, hRightPath] at hText
        exact absurd hText (lt_irrefl _)
    · rcases hRight with hOther | ⟨other, hOtherPath, _, hOther⟩
      · rw [hLeftPath, hRightPath] at hOther
        exact absurd hOther (lt_irrefl _)
      · have hSame : other = place := Place.path_injective (hOtherPath.symm.trans hRightPath)
        rw [hSame] at hOther
        exact absurd hOther (lt_asymm hIndex)

/-- The list of all violations of a document, each once, in order. -/
structure ListsViolations (document : Value) (found : List Violation) : Prop where
  mem_iff : ∀ violation, violation ∈ found ↔ Violates document violation
  once : (found.map fun violation => (violation.path, violation.constraint)).Nodup
  ordered : found.Pairwise Violation.Precedes

/-! ### All violations are found -/

theorem lt_operationCount {document value : Value} {index : Nat} {rest : List Step}
    (hPart : part? (.field "Ops" :: .item index :: rest) document = some value) :
    index < operationCount document := by
  obtain ⟨held, hField, hRest⟩ := Option.bind_eq_some_iff.mp hPart
  obtain ⟨item, hItem, _⟩ := Option.bind_eq_some_iff.mp hRest
  cases held with
  | list items =>
      rw [operationCount, hField]
      exact (List.getElem?_eq_some_iff.mp hItem).1
  | _ => cases hItem

theorem mem_placesOf_of_index {document : Value} {place : Place} {index : Nat}
    (hIndex : index < operationCount document) (hPlace : place ∈ operationPlaces index) :
    place ∈ placesOf document :=
  List.mem_append_right _ (List.mem_flatMap.mpr ⟨index, List.mem_range.mpr hIndex, hPlace⟩)

theorem mem_placesOf_of_part {document value : Value} {place : Place}
    (hPart : part? place.path document = some value) : place ∈ placesOf document := by
  cases place with
  | document => simp [placesOf]
  | evalMaxVersion => simp [placesOf]
  | logicSigVersion => simp [placesOf]
  | operations => simp [placesOf]
  | operation index =>
      exact mem_placesOf_of_index (lt_operationCount hPart) (by simp [operationPlaces])
  | opcode index =>
      exact mem_placesOf_of_index (lt_operationCount hPart) (by simp [operationPlaces])
  | name index =>
      exact mem_placesOf_of_index (lt_operationCount hPart) (by simp [operationPlaces])
  | cost index =>
      exact mem_placesOf_of_index (lt_operationCount hPart) (by simp [operationPlaces])
  | size index =>
      exact mem_placesOf_of_index (lt_operationCount hPart) (by simp [operationPlaces])

theorem mem_unorderedViolations_iff (document : Value) (violation : Violation) :
    violation ∈ unorderedViolations document ↔ Violates document violation := by
  simp only [unorderedViolations_eq, List.mem_flatMap, mem_violationsAt_iff]
  constructor
  · rintro ⟨place, _, hViolation⟩
    exact ⟨place, hViolation⟩
  · rintro ⟨place, hPath, hMember, hPart, hBroken⟩
    exact ⟨place, mem_placesOf_of_part hPart, hPath, hMember, hPart, hBroken⟩

/-! ### They are found in the order of the schema -/

/-- The index of the operation that a place belongs to. -/
def Place.index? : Place → Option Nat
  | operation index | opcode index | name index | cost index | size index => some index
  | _ => none

theorem index?_of_mem_operationPlaces {place : Place} {index : Nat}
    (hPlace : place ∈ operationPlaces index) : place.index? = some index := by
  simp only [operationPlaces, List.mem_cons, List.not_mem_nil, or_false] at hPlace
  rcases hPlace with rfl | rfl | rfl | rfl | rfl <;> rfl

theorem nodup_placesOf (document : Value) : (placesOf document).Nodup := by
  refine List.nodup_append.mpr ⟨by decide, ?_, ?_⟩
  · refine List.pairwise_flatMap.mpr ⟨fun index _ => by simp [operationPlaces], ?_⟩
    refine List.nodup_range.imp ?_
    rintro first second hDifferent place hFirst _ hSecond rfl
    have hSame := (index?_of_mem_operationPlaces hFirst).symm.trans
      (index?_of_mem_operationPlaces hSecond)
    exact hDifferent (Option.some.inj hSame)
  · rintro first hFirst second hSecond rfl
    obtain ⟨index, _, hPlace⟩ := List.mem_flatMap.mp hSecond
    have hIndex := index?_of_mem_operationPlaces hPlace
    simp only [List.mem_cons, List.not_mem_nil, or_false] at hFirst
    rcases hFirst with rfl | rfl | rfl | rfl <;> cases hIndex

/-- The first of two constraints on a place comes first. -/
def Violation.ComesFirst (left right : Violation) : Prop :=
  ∀ place : Place, left.path = place.path → right.path = place.path →
    place.constraints.idxOf left.constraint < place.constraints.idxOf right.constraint

theorem pairwise_violationsAt (document : Value) (place : Place) :
    (violationsAt document place).Pairwise Violation.ComesFirst := by
  have hConstraints : place.constraints.Pairwise fun first second =>
      place.constraints.idxOf first < place.constraints.idxOf second := by
    refine List.pairwise_iff_getElem.mpr fun first second hFirst hSecond hLess => ?_
    rwa [place.constraints_nodup.idxOf_getElem, place.constraints_nodup.idxOf_getElem]
  rw [violationsAt]
  cases part? place.path document with
  | none => exact List.Pairwise.nil
  | some value =>
      refine List.pairwise_map.mpr ((hConstraints.filter _).imp ?_)
      intro first second hLess other hOther _
      rwa [← Place.path_injective hOther]

theorem pairwise_unorderedViolations (document : Value) :
    (unorderedViolations document).Pairwise Violation.ComesFirst := by
  rw [unorderedViolations_eq, List.pairwise_flatMap]
  refine ⟨fun place _ => pairwise_violationsAt document place, ?_⟩
  refine (nodup_placesOf document).imp ?_
  intro first second hDifferent left hLeft right hRight place hLeftPlace hRightPlace
  have hFirst := ((mem_violationsAt_iff _ _ _).mp hLeft).1
  have hSecond := ((mem_violationsAt_iff _ _ _).mp hRight).1
  refine absurd (Place.path_injective ?_) hDifferent
  rw [← hFirst, ← hSecond, hLeftPlace, hRightPlace]

/-! ### Sorting them by path text -/

/-- The path text of a violation is not greater than that of another. -/
def textLe (left right : Violation) : Bool :=
  Text.order (pathText left.path) (pathText right.path) != .gt

theorem textLe_iff (left right : Violation) :
    textLe left right = true ↔ (pathText left.path).codes ≤ (pathText right.path).codes := by
  rw [textLe, bne_iff_ne, ne_eq, Text.order_eq_gt_iff, not_lt]

theorem textLe_trans (first second third : Violation) (hFirst : textLe first second = true)
    (hSecond : textLe second third = true) : textLe first third = true := by
  rw [textLe_iff] at hFirst hSecond ⊢
  exact hFirst.trans hSecond

theorem textLe_total (first second : Violation) :
    (textLe first second || textLe second first) = true := by
  rw [Bool.or_eq_true, textLe_iff, textLe_iff]
  exact le_total _ _

theorem violations_eq_mergeSort (document : Value) :
    violations document = (unorderedViolations document).mergeSort textLe := rfl

theorem mem_violations_iff (document : Value) (violation : Violation) :
    violation ∈ violations document ↔ Violates document violation := by
  rw [violations, List.mem_mergeSort, mem_unorderedViolations_iff]

/-- The violations at a place keep their order when the list is sorted. -/
theorem filter_violations (document : Value) (path : List Step) :
    (violations document).filter (fun violation => violation.path = path) =
      (unorderedViolations document).filter (fun violation => violation.path = path) := by
  rw [violations_eq_mergeSort]
  refine filter_mergeSort textLe_trans textLe_total (fun first second hFirst hSecond => ?_) _
  rw [textLe_iff, of_decide_eq_true hFirst, of_decide_eq_true hSecond]

theorem pairwise_violations (document : Value) :
    (violations document).Pairwise Violation.Precedes := by
  refine List.pairwise_iff_forall_sublist.mpr fun {left right} hPair => ?_
  have hSorted : (pathText left.path).codes ≤ (pathText right.path).codes :=
    (textLe_iff left right).mp (List.pairwise_iff_forall_sublist.mp
      (List.pairwise_mergeSort textLe_trans textLe_total (unorderedViolations document)) hPair)
  rcases hSorted.lt_or_eq with hLess | hSame
  · exact .inl hLess
  · obtain ⟨place, hLeft, _⟩ :=
      (mem_violations_iff document left).mp (hPair.subset List.mem_cons_self)
    obtain ⟨other, hRight, _⟩ :=
      (mem_violations_iff document right).mp (hPair.subset (by simp))
    -- One path text means one place, where sorting has changed nothing.
    rw [hLeft, hRight] at hSame
    have hPlace : place = other := Place.eq_of_pathText_eq (Text.codes_injective hSame)
    have hKept := hPair.filter fun violation => violation.path = place.path
    rw [filter_violations] at hKept
    have hFound : [left, right].Sublist (unorderedViolations document) := by
      simpa [hLeft, hRight, hPlace] using hKept.trans List.filter_sublist
    have hFirst :=
      List.pairwise_iff_forall_sublist.mp (pairwise_unorderedViolations document) hFound
    rw [← hPlace] at hRight
    exact .inr ⟨place, hLeft, hRight, hFirst place hLeft hRight⟩

theorem listsViolations_violations (document : Value) :
    ListsViolations document (violations document) where
  mem_iff := mem_violations_iff document
  once := by
    refine List.pairwise_map.mpr ((pairwise_violations document).imp ?_)
    intro left right hPrecedes hSame
    obtain ⟨hPath, hConstraint⟩ := Prod.mk.inj hSame
    rcases hPrecedes with hText | ⟨place, _, _, hIndex⟩
    · rw [hPath] at hText
      exact lt_irrefl _ hText
    · rw [hConstraint] at hIndex
      exact lt_irrefl _ hIndex
  ordered := pairwise_violations document

theorem listsViolations_iff (document : Value) (found : List Violation) :
    ListsViolations document found ↔ found = violations document := by
  constructor
  · intro hLists
    refine hLists.ordered.eq_of_mem_iff (pairwise_violations document) fun violation => ?_
    rw [hLists.mem_iff, mem_violations_iff]
  · rintro rfl
    exact listsViolations_violations document

/-! ### Documents without violations -/

/-- A record describes an operation: it has these numbers in its fields, and this name or none. -/
structure DescribesOperation (item : Value) (operation : Operation) : Prop where
  opcode : item.field? "Opcode" = some (.ofQuantity operation.opcode)
  cost : item.field? "Cost" = some (.ofQuantity operation.cost)
  size : item.field? "Size" = some (.ofQuantity operation.size)
  name : item.field? "Name" = some (.text operation.name) ∨
    item.field? "Name" = none ∧ operation.name = []

/-- A document describes a specification: its operations are those of the list, one by one. -/
structure Describes (document : Value) (spec : LangSpec) : Prop where
  evalMaxVersion : document.field? "EvalMaxVersion" = some (.ofQuantity spec.evalMaxVersion)
  logicSigVersion : document.field? "LogicSigVersion" = some (.ofQuantity spec.logicSigVersion) ∨
    document.field? "LogicSigVersion" = none ∧ spec.logicSigVersion = spec.evalMaxVersion
  operations : ∃ items, document.field? "Ops" = some (.list items) ∧
    List.Forall₂ DescribesOperation items spec.operations

section

variable {document : Value} (hValid : violations document = [])

include hValid

theorem not_broken_of_valid {place : Place} {value : Value} {constraint : Constraint}
    (hPart : part? place.path document = some value) (hMember : constraint ∈ place.constraints) :
    ¬ Broken constraint value := by
  intro hBroken
  have hListed : ⟨place.path, constraint, value⟩ ∈ violations document :=
    (mem_violations_iff _ _).mpr ⟨place, rfl, hMember, hPart, hBroken⟩
  rw [hValid] at hListed
  cases hListed

theorem describes_of_valid {place : Place} {value : Value} {kind : Kind}
    (hPart : part? place.path document = some value)
    (hMember : .kind kind ∈ place.constraints) : kind.Describes value :=
  not_not.mp fun hKind => not_broken_of_valid hValid hPart hMember (.kind hKind)

/-- A field that is required of a record at a place is there. -/
theorem exists_field_of_valid (place : Place) {value : Value} {name : Text}
    (hPart : part? place.path document = some value)
    (hObject : .kind .object ∈ place.constraints) (hRequired : .required name ∈ place.constraints) :
    ∃ part, value.field? name = some part := by
  obtain ⟨fields, rfl⟩ := describes_of_valid hValid hPart hObject
  cases hField : fields.lookup name with
  | some part => exact ⟨part, hField⟩
  | none =>
      exact absurd (.required ((lookup_eq_none_iff_absent name fields).mp hField))
        (not_broken_of_valid hValid hPart hRequired)

omit hValid in
theorem part?_field (place child : Place) {value part : Value} {name : Text}
    (hPath : child.path = place.path ++ [.field name])
    (hPart : part? place.path document = some value) (hField : value.field? name = some part) :
    part? child.path document = some part := by
  rw [hPath, part?_append, hPart, Option.bind_some, part?, hField]
  rfl

theorem exists_quantity_of_valid (place child : Place) {value part : Value} {name : Text}
    (hPath : child.path = place.path ++ [.field name])
    (hPart : part? place.path document = some value) (hField : value.field? name = some part)
    (hInteger : .kind .integer ∈ child.constraints) :
    ∃ quantity, part = .ofQuantity quantity := by
  obtain ⟨quantity, _, hQuantity, _⟩ :=
    describes_of_valid hValid (part?_field place child hPath hPart hField) hInteger
  exact ⟨quantity, hQuantity⟩

omit hValid in
theorem quantityField_eq {value : Value} {name : Text} {quantity : Quantity}
    (hField : value.field? name = some (.ofQuantity quantity)) (otherwise : Quantity) :
    quantityField name value otherwise = quantity := by
  rw [quantityField, hField, Option.bind_some, (quantity?_eq_some_iff _ _).mpr rfl,
    Option.getD_some]

/-- A required number is read as it stands. -/
theorem field?_eq_quantityField (place child : Place) {value : Value} {name : Text}
    (hPath : child.path = place.path ++ [.field name])
    (hPart : part? place.path document = some value)
    (hObject : .kind .object ∈ place.constraints) (hRequired : .required name ∈ place.constraints)
    (hInteger : .kind .integer ∈ child.constraints) (otherwise : Quantity) :
    value.field? name = some (.ofQuantity (quantityField name value otherwise)) := by
  obtain ⟨part, hField⟩ := exists_field_of_valid hValid place hPart hObject hRequired
  obtain ⟨quantity, rfl⟩ := exists_quantity_of_valid hValid place child hPath hPart hField hInteger
  rw [quantityField_eq hField, hField]

theorem describesOperation_operationOf {index : Nat} {item : Value}
    (hItem : part? (Place.operation index).path document = some item) :
    DescribesOperation item (operationOf item) where
  opcode := by
    refine field?_eq_quantityField hValid (.operation index) (.opcode index) rfl hItem ?_ ?_ ?_ _
      <;> simp [Place.constraints]
  cost := by
    refine field?_eq_quantityField hValid (.operation index) (.cost index) rfl hItem ?_ ?_ ?_ _
      <;> simp [Place.constraints]
  size := by
    refine field?_eq_quantityField hValid (.operation index) (.size index) rfl hItem ?_ ?_ ?_ _
      <;> simp [Place.constraints]
  name := by
    rw [operationOf, textField]
    cases hField : item.field? "Name" with
    | none => exact .inr ⟨rfl, rfl⟩
    | some part =>
        have hName : part? (Place.name index).path document = some part :=
          part?_field (.operation index) (.name index) rfl hItem hField
        obtain ⟨content, rfl⟩ : Kind.string.Describes part :=
          describes_of_valid hValid hName (by simp [Place.constraints])
        exact .inl rfl

theorem describes_specOf (source : Text) : Describes document (specOf document source) where
  evalMaxVersion := by
    refine field?_eq_quantityField hValid .document .evalMaxVersion rfl rfl ?_ ?_ ?_ _
      <;> simp [Place.constraints]
  logicSigVersion := by
    cases hField : document.field? "LogicSigVersion" with
    | none => exact .inr ⟨rfl, by simp [specOf, quantityField, hField]⟩
    | some part =>
        obtain ⟨quantity, rfl⟩ := exists_quantity_of_valid hValid .document .logicSigVersion
          rfl rfl hField (by simp [Place.constraints])
        exact .inl (by rw [specOf, quantityField_eq hField])
  operations := by
    obtain ⟨part, hOps⟩ : ∃ part, document.field? "Ops" = some part :=
      exists_field_of_valid hValid .document rfl (by simp [Place.constraints])
        (by simp [Place.constraints])
    have hPart : part? Place.operations.path document = some part :=
      part?_field .document .operations rfl rfl hOps
    obtain ⟨items, rfl⟩ : Kind.array.Describes part :=
      describes_of_valid hValid hPart (by simp [Place.constraints])
    refine ⟨items, hOps, ?_⟩
    rw [specOf, operationsOf, hOps, List.forall₂_map_right_iff, List.forall₂_same]
    intro item hItem
    obtain ⟨index, hIndex⟩ := List.mem_iff_getElem?.mp hItem
    have hPart : part? (Place.operation index).path document = some item := by
      simp [Place.path, part?, hOps, Value.item?, hIndex]
    exact describesOperation_operationOf hValid hPart

end

/-- The violations of a document are listed once each, in order, and by one list only. Reading the
document fails with this list exactly if it is not empty, and gives the specification that the
document describes exactly if it is empty. -/
theorem violations_listed_and_parse (document : Value) (source : Text) :
    (∀ found, ListsViolations document found ↔ found = violations document) ∧
      ((∃ fault, parse document source = .error fault ∧
          fault.violationTexts = (violations document).map Violation.text) ↔
        violations document ≠ []) ∧
      ((∃ spec, parse document source = .ok spec ∧ Describes document spec ∧
          spec.source = source) ↔
        violations document = []) := by
  refine ⟨listsViolations_iff document, ⟨?_, fun hFound => ?_⟩, ?_, fun hValid => ?_⟩
  · rintro ⟨fault, hParse, _⟩ hValid
    rw [parse_of_valid hValid] at hParse
    cases hParse
  · exact ⟨_, parse_of_invalid hFound source, rfl⟩
  · rintro ⟨spec, hParse, _⟩
    by_contra hFound
    rw [parse_of_invalid hFound] at hParse
    cases hParse
  · exact ⟨_, parse_of_valid hValid source, describes_specOf hValid source, rfl⟩

end LangSpec

end LogicSignature
