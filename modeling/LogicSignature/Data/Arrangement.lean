import LogicSignature.Data.Basic

/-
The arrangement of a set. Members stand in a table whose size is a power of two, and are shown in
the order of the table. The place of a number is its residue; when that is taken, the places next to
it are tried, and then places further off. Members other than numbers have no fixed place.
-/

namespace LogicSignature.Arrangement

/-- The modulus of residues, a Mersenne prime. -/
def modulus : Nat := Nat.pow 2 61 - 1

/-- The residue of a number with the given sign and amount. Minus one is kept free. -/
def signedResidue (negative : Bool) (amount : Nat) : Int :=
  let residue := Binary64.signed negative (amount % modulus)
  if residue == -1 then -2 else residue

/-- The residue of an atom that is a number. The residue of a power of two depends only on the
remainder of its exponent by 61, so that fractions have one too. -/
def residue? : Atom → Option Int
  | .boolean flag => some (if flag then 1 else 0)
  | .integer number => some (signedResidue (number < 0) number.natAbs)
  | .real (.finite negative mantissa exponent) =>
    some (signedResidue negative (mantissa * Nat.pow 2 (exponent % 61).toNat))
  | .real (.infinite negative) => some (Binary64.signed negative 314159)
  | _ => none

/-- The size of the table for a number of members. -/
def tableSize (count : Nat) : Nat := if count ≤ 4 then 8 else Nat.pow 2 ((2 * count).log2 + 1)

/-- The number of places behind the first one that are tried before going further off. -/
def reach : Nat := 9

/-- The places tried together, from a first one on. -/
def window (size start : Nat) : List Nat :=
  if start + reach < size then (List.range (reach + 1)).map (start + ·) else [start]

/-- Finds a free place. The step is steered by the residue until that is used up; then it visits
every place, which gives the bound. -/
def freePlace (isFree : Nat → Bool) (size : Nat) : Nat → Nat → Nat → Nat
  | 0, start, _ => start
  | bound + 1, start, steering =>
    match (window size start).find? isFree with
    | some place => place
    | none =>
      let rest := steering / 32
      freePlace isFree size bound ((start * 5 + 1 + rest) % size) rest

variable {Member : Type}

def insert (table : Array (Option Member)) (residue : Int) (member : Member) :
    Array (Option Member) :=
  let size := table.size
  let isFree (place : Nat) : Bool := ((table[place]?).join).isNone
  let steering := (residue % (Nat.pow 2 64 : Nat)).toNat
  table.setIfInBounds (freePlace isFree size (size + 16) (steering % size) steering) (some member)

/-- The members of a set in the order of the table, each given with its residue. -/
def arrange (members : List (Int × Member)) : List Member :=
  let blank : Array (Option Member) := Array.replicate (tableSize members.length) none
  let table := members.foldl (fun table (residue, member) => insert table residue member) blank
  table.toList.filterMap id

/-- The members of a set in the order in which they are shown: as they were given, unless all of
them are numbers. -/
def ofMembers (atomOf : Member → Atom) (members : List Member) : List Member :=
  match members.mapM (fun member => (residue? (atomOf member)).map (·, member)) with
  | some keyed => arrange keyed
  | none => members

end LogicSignature.Arrangement
