import LogicSignature.Number.Quantity

/-
Document values: what a JSON document holds and what reports and log contexts are made of. A record
keeps its fields in the order of first appearance, and a repeated field keeps its place and takes
the later value.
-/

namespace LogicSignature

/-- A document value. -/
inductive Value where
  | null
  | boolean (flag : Bool)
  | integer (number : Int)
  | real (number : Binary64)
  | text (content : Text)
  | list (items : List Value)
  | record (fields : List (Text × Value))
deriving Repr, Inhabited

namespace Value

/-- Sets one entry of an ordered association: in place when the key is present, else at the end. -/
def setEntry {Key Entry : Type} [BEq Key] (key : Key) (entry : Entry) :
    List (Key × Entry) → List (Key × Entry)
  | [] => [(key, entry)]
  | (other, old) :: rest =>
    if other == key then (other, entry) :: rest else (other, old) :: setEntry key entry rest

section Entries

variable {Key Entry : Type} [BEq Key] [LawfulBEq Key]

theorem lookup_setEntry (key other : Key)
    (entry : Entry) (entries : List (Key × Entry)) :
    (setEntry key entry entries).lookup other =
      if other == key then some entry else entries.lookup other := by
  induction entries with
  | nil => cases hSame : other == key <;> simp [setEntry, List.lookup_cons, hSame]
  | cons first rest ih =>
      obtain ⟨firstKey, old⟩ := first
      rw [setEntry]
      by_cases hKey : firstKey = key
      · subst hKey
        rw [if_pos (beq_self_eq_true firstKey)]
        cases hSame : other == firstKey <;> simp [List.lookup_cons, hSame]
      · rw [if_neg (by simpa using hKey), List.lookup_cons, List.lookup_cons, ih]
        cases hFirst : other == firstKey with
        | false => rfl
        | true =>
            have hOther : other ≠ key := by
              rw [eq_of_beq hFirst]
              exact hKey
            simp [hOther]

theorem mem_setEntry {key : Key} {entry : Entry}
    {entries : List (Key × Entry)} {found : Key × Entry}
    (hFound : found ∈ setEntry key entry entries) :
    found = (key, entry) ∨ found ∈ entries := by
  induction entries with
  | nil => exact .inl (List.mem_singleton.mp hFound)
  | cons first rest ih =>
      obtain ⟨firstKey, old⟩ := first
      rw [setEntry] at hFound
      by_cases hKey : firstKey = key
      · rw [if_pos (beq_iff_eq.mpr hKey), hKey] at hFound
        rcases List.mem_cons.mp hFound with hHere | hRest
        · exact .inl hHere
        · exact .inr (List.mem_cons_of_mem _ hRest)
      · rw [if_neg (by simpa using hKey)] at hFound
        rcases List.mem_cons.mp hFound with hHere | hRest
        · exact .inr (hHere ▸ List.mem_cons_self)
        · exact (ih hRest).imp id (List.mem_cons_of_mem _)

theorem setEntry_of_not_mem {key : Key} {entries : List (Key × Entry)}
    (hAbsent : key ∉ entries.map Prod.fst) (entry : Entry) :
    setEntry key entry entries = entries ++ [(key, entry)] := by
  induction entries with
  | nil => rfl
  | cons first rest ih =>
      obtain ⟨firstKey, old⟩ := first
      rw [List.map_cons, List.mem_cons, not_or] at hAbsent
      rw [setEntry, if_neg (by simpa using Ne.symm hAbsent.1), ih hAbsent.2, List.cons_append]

theorem keys_setEntry_of_mem {key : Key} {entries : List (Key × Entry)}
    (hPresent : key ∈ entries.map Prod.fst) (entry : Entry) :
    (setEntry key entry entries).map Prod.fst = entries.map Prod.fst := by
  induction entries with
  | nil => cases hPresent
  | cons first rest ih =>
      obtain ⟨firstKey, old⟩ := first
      rw [setEntry]
      by_cases hKey : firstKey = key
      · rw [if_pos (beq_iff_eq.mpr hKey), List.map_cons, List.map_cons]
      · rw [List.map_cons, List.mem_cons] at hPresent
        rw [if_neg (by simpa using hKey), List.map_cons, List.map_cons,
          ih (hPresent.resolve_left (Ne.symm hKey))]

theorem nodup_keys_setEntry {key : Key} {entries : List (Key × Entry)}
    (hDistinct : (entries.map Prod.fst).Nodup) (entry : Entry) :
    ((setEntry key entry entries).map Prod.fst).Nodup := by
  by_cases hPresent : key ∈ entries.map Prod.fst
  · rwa [keys_setEntry_of_mem hPresent]
  · rw [setEntry_of_not_mem hPresent, List.map_append, List.nodup_append]
    refine ⟨hDistinct, List.nodup_cons.mpr ⟨List.not_mem_nil, List.nodup_nil⟩, ?_⟩
    intro other hOther added hAdded hSame
    rw [List.map_singleton, List.mem_singleton] at hAdded
    rw [hSame, hAdded] at hOther
    exact hPresent hOther

end Entries

def field? (name : Text) : Value → Option Value
  | .record fields => fields.lookup name
  | _ => none

def ofQuantity : Quantity → Value
  | .integer number => .integer number
  | .real number => .real number

/-- The quantity that a number value holds. A truth value is no number. -/
def quantity? : Value → Option Quantity
  | .integer number => some (.integer number)
  | .real number => some (.real number)
  | _ => none

def kindName : Value → Text
  | .null => "NoneType"
  | .boolean _ => "bool"
  | .integer _ => "int"
  | .real _ => "float"
  | .text _ => "str"
  | .list _ => "list"
  | .record _ => "dict"

/-- Whether a value counts as something: zero and the empty values do not. -/
def isPresent : Value → Bool
  | .null => false
  | .boolean flag => flag
  | .integer number => number != 0
  | .real number => !Quantity.same (.real number) (.integer 0)
  | .text content => !content.isEmpty
  | .list items => !items.isEmpty
  | .record fields => !fields.isEmpty

end Value

end LogicSignature
