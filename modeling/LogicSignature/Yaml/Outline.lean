import LogicSignature.Data.Content
import LogicSignature.Yaml.Plain

/-
Outlines: what a YAML text is written from. The entries of a mapping stand in the order of their
keys where the keys can be put in order. A datum that is met again is only referred to, so that the
outline of a datum that lies inside itself is finite.
-/

namespace LogicSignature.Yaml

/-- What tells a datum of a settings file from all others: the serial number of the graph, and the
place in it. -/
abbrev Identity := Nat × Nat

/-- The outline of a datum. -/
inductive Outline where
  | scalar (identity : Option Identity) (tag : Tag) (content : Text)
  | sequence (identity : Option Identity) (tag : Tag) (items : List Outline)
  | mapping (identity : Option Identity) (tag : Tag) (entries : List (Outline × Outline))
  | again (identity : Identity)
deriving Inhabited

namespace Outline

/-! ### Scalars -/

/-- The text of a real; an exponent comes behind a fraction. -/
def realText : Binary64 → Text
  | .undefined => ".nan"
  | .infinite negative => if negative then "-.inf" else ".inf"
  | number =>
    let text := number.text
    if text.contains (.char '.') then text
    else text.flatMap (fun point => if point == .char 'e' then (".0e" : Text) else [point])

/-- A base-64 digit. -/
def sixBitsPoint (value : Nat) : CodePoint :=
  if value < 26 then .ofCode (65 + value)
  else if value < 52 then .ofCode (71 + value)
  else if value < 62 then .ofCode (value - 4)
  else if value == 62 then '+'
  else '/'

/-- The base-64 digits of bytes, filled up to groups of four. -/
def base64 : List UInt8 → Text
  | [] => []
  | [a] =>
    [sixBitsPoint (a.toNat / 4), sixBitsPoint (a.toNat % 4 * 16), '=', '=']
  | [a, b] =>
    [sixBitsPoint (a.toNat / 4), sixBitsPoint (a.toNat % 4 * 16 + b.toNat / 16),
      sixBitsPoint (b.toNat % 16 * 4), '=']
  | a :: b :: c :: rest =>
    sixBitsPoint (a.toNat / 4) :: sixBitsPoint (a.toNat % 4 * 16 + b.toNat / 16)
      :: sixBitsPoint (b.toNat % 16 * 4 + c.toNat / 64) :: sixBitsPoint (c.toNat % 64)
      :: base64 rest

/-- The most bytes on one line of base-64 text. -/
def lineBytes : Nat := 57

/-- Base-64 text in lines, each with a line end. The bound is the number of bytes. -/
def base64Lines : Nat → List UInt8 → Text
  | 0, _ => []
  | _ + 1, [] => []
  | bound + 1, bytes =>
    base64 (bytes.take lineBytes) ++ "\n" ++ base64Lines bound (bytes.drop lineBytes)

/-- The type and the content of an atom. -/
def ofAtom : Atom → Tag × Text
  | .null => (.null, "null")
  | .boolean flag => (.boolean, if flag then "true" else "false")
  | .integer number => (.integer, Text.signedDecimal number)
  | .real number => (.real, realText number)
  | .text content => (.text, content)
  | .bytes content => (.binary, base64Lines content.length content)
  | .date day => (.timestamp, day.text)
  | .moment instant => (.timestamp, instant.text)

/-- Whether an atom is referred to when it is met again. -/
def isShared : Atom → Bool
  | .date _ | .moment _ => true
  | _ => false

def plainAtom (atom : Atom) : Outline := .scalar none (ofAtom atom).1 (ofAtom atom).2

/-! ### The order of keys -/

/-- Where a key goes among keys in order: behind all that are not greater, found by halving. -/
def insertionPoint {Entry : Type} (keyOf : Entry → Atom) (key : Atom) (sorted : Array Entry) :
    Nat → Nat → Nat → Nat
  | 0, low, _ => low
  | bound + 1, low, high =>
    if low < high then
      let middle := low + (high - low) / 2
      match sorted[middle]? with
      | none => low
      | some entry =>
        if key.less (keyOf entry) then insertionPoint keyOf key sorted bound low middle
        else insertionPoint keyOf key sorted bound (middle + 1) high
    else low

/-- The length of the run at the start in which each key is related to the one before it. -/
def runLength {Entry : Type} (related : Entry → Entry → Bool) : List Entry → Nat
  | [] => 0
  | [_] => 1
  | first :: second :: rest =>
    if related first second then runLength related (second :: rest) + 1 else 1

/-- Entries in the order of their keys. A descending run at the start is turned round, and the other
entries are inserted one by one; with an undefined number among the keys, which compares with
nothing, the way of sorting shows. -/
def sortByKey {Entry : Type} (keyOf : Entry → Atom) (entries : List Entry) : List Entry :=
  let descends (first second : Entry) : Bool := (keyOf second).less (keyOf first)
  let descending :=
    match entries with
    | first :: second :: _ => descends first second
    | _ => false
  let count :=
    if descending then runLength descends entries
    else runLength (fun first second => !descends first second) entries
  let run := entries.take count
  let start := (if descending then run.reverse else run).toArray
  ((entries.drop count).foldl
    (fun sorted entry =>
      let place := insertionPoint keyOf (keyOf entry) sorted (sorted.size + 1) 0 sorted.size
      sorted.extract 0 place ++ #[entry] ++ sorted.extract place sorted.size)
    start).toList

/-- Entries in the order of their keys, if the keys are all of one rank; else as they stand. -/
def arrange {Entry : Type} (keyOf : Entry → Atom) (entries : List Entry) : List Entry :=
  match entries with
  | [] => []
  | first :: _ =>
    if entries.all (fun entry => (keyOf entry).rank == (keyOf first).rank) then
      sortByKey keyOf entries
    else entries

/-! ### Document values -/

mutual

def ofValue : Value → Outline
  | .null => plainAtom .null
  | .boolean flag => plainAtom (.boolean flag)
  | .integer number => plainAtom (.integer number)
  | .real number => plainAtom (.real number)
  | .text content => plainAtom (.text content)
  | .list items => .sequence none .sequence (ofItems items)
  | .record fields =>
    .mapping none .mapping
      ((arrange (fun field => .text field.1) (ofFields fields)).map
        (fun field => (plainAtom (.text field.1), field.2)))

def ofItems : List Value → List Outline
  | [] => []
  | item :: rest => ofValue item :: ofItems rest

def ofFields : List (Text × Value) → List (Text × Outline)
  | [] => []
  | (name, value) :: rest => (name, ofValue value) :: ofFields rest

end

/-! ### Data with identity -/

/-- The data met so far, and those of them that were met again, in the order in which that
happened. -/
structure Trace where
  met : List Identity
  repeated : List Identity

/-- Notes that a datum is met again. -/
def Trace.meetAgain (trace : Trace) (identity : Identity) : Trace :=
  if trace.repeated.contains identity then trace
  else { trace with repeated := trace.repeated ++ [identity] }

def Trace.meet (trace : Trace) (identity : Identity) : Trace :=
  { trace with met := identity :: trace.met }

/-- Passes a trace through the outlines of several things. -/
def inOrder {Item : Type} (outline : Item → Trace → Outline × Trace) :
    List Item → Trace → List Outline × Trace
  | [], trace => ([], trace)
  | item :: rest, trace =>
    let (first, next) := outline item trace
    let (others, final) := inOrder outline rest next
    (first :: others, final)

def pairsInOrder {Item : Type} (outline : Item → Trace → Outline × Trace) :
    List (Item × Item) → Trace → List (Outline × Outline) × Trace
  | [], trace => ([], trace)
  | (left, right) :: rest, trace =>
    let (first, afterFirst) := outline left trace
    let (second, next) := outline right afterFirst
    let (others, final) := pairsInOrder outline rest next
    ((first, second) :: others, final)

/-- The outline of the datum at a place of a graph. A collection is met before its parts are, so
that no way is longer than the number of nodes, which gives the bound. -/
def ofPlace (serial : Nat) (graph : Graph) : Nat → Nat → Trace → Outline × Trace
  | 0, _, trace => (plainAtom .null, trace)
  | bound + 1, place, trace =>
    let identity : Identity := (serial, place)
    let node := graph.node place
    let isPlain :=
      match node with
      | .atom content => !isShared content
      | _ => false
    if !isPlain && trace.met.contains identity then (.again identity, trace.meetAgain identity)
    else
      let inside := ofPlace serial graph bound
      let entered := trace.meet identity
      match node with
      | .atom content =>
        if isShared content then
          (.scalar (some identity) (ofAtom content).1 (ofAtom content).2, entered)
        else (plainAtom content, trace)
      | .list items =>
        let (outlines, final) := inOrder inside items entered
        (.sequence (some identity) .sequence outlines, final)
      | .pairs items =>
        let (outlines, final) := pairsInOrder inside items entered
        (.sequence (some identity) .sequence
          (outlines.map fun (first, second) => .sequence none .tuple [first, second]), final)
      | .set members =>
        let (outlines, final) := inOrder inside (arrange graph.atomAt members) entered
        (.mapping (some identity) .set (outlines.map fun key => (key, plainAtom .null)), final)
      | .mapping entries =>
        let sorted := arrange (fun entry => graph.atomAt entry.1) entries
        let (outlines, final) := pairsInOrder inside sorted entered
        (.mapping (some identity) .mapping outlines, final)

def ofDatum (datum : Datum) (trace : Trace) : Outline × Trace :=
  ofPlace datum.serial datum.graph (datum.graph.nodes.size + 1) datum.place trace

/-- The contents of a record in the order of their names. The outlines are made in that order. -/
def insertByName {Entry : Type} (name : Text) (entry : Entry) :
    List (Text × Entry) → List (Text × Entry)
  | [] => [(name, entry)]
  | (other, old) :: rest =>
    if Text.order name other == .lt then (name, entry) :: (other, old) :: rest
    else (other, old) :: insertByName name entry rest

mutual

def ofContent : Content → Trace → Outline × Trace
  | .value value, trace => (ofValue value, trace)
  | .datum datum, trace => ofDatum datum trace
  | .record fields, trace =>
    let (outlines, final) :=
      (ofContents fields).foldl
        (fun (done : List (Outline × Outline) × Trace) field =>
          let (outline, next) := field.2 done.2
          ((plainAtom (.text field.1), outline) :: done.1, next))
        ([], trace)
    (.mapping none .mapping outlines.reverse, final)

/-- The makers of the outlines of the fields of a record, in the order of the names. -/
def ofContents : List (Text × Content) → List (Text × (Trace → Outline × Trace))
  | [] => []
  | (name, content) :: rest => insertByName name (ofContent content) (ofContents rest)

end

mutual

/-- Whether all integers of an outline have few enough digits to be written. -/
def isWritable : Outline → Bool
  | .scalar _ tag content =>
    tag != .integer || decide ((Plain.unsigned content).length ≤ Numeral.digitLimit)
  | .sequence _ _ items => allWritable items
  | .mapping _ _ entries => entriesWritable entries
  | .again _ => true

def allWritable : List Outline → Bool
  | [] => true
  | item :: rest => isWritable item && allWritable rest

def entriesWritable : List (Outline × Outline) → Bool
  | [] => true
  | (key, value) :: rest => isWritable key && isWritable value && entriesWritable rest

end

end Outline

end LogicSignature.Yaml
