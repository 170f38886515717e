import LogicSignature.Data.Basic

/-
Data graphs: the data of one settings file with the identity of its parts. A part that the file
names twice is one node with two ways to it, and a collection may lie inside itself.
-/

namespace LogicSignature

/-- A node of a graph. Its parts are given by their places. -/
inductive Graph.Node where
  | atom (content : Atom)
  | list (items : List Nat)
  | pairs (items : List (Nat × Nat))
  | set (members : List Nat)
  | mapping (entries : List (Nat × Nat))
deriving DecidableEq, Repr, Inhabited

/-- A data graph: nodes, each at its place. -/
structure Graph where
  nodes : Array Graph.Node
deriving DecidableEq, Repr

namespace Graph

def node (graph : Graph) (place : Nat) : Node := (graph.nodes[place]?).getD (.atom .null)

/-- The atom at a place where a key stands. -/
def atomAt (graph : Graph) (place : Nat) : Atom :=
  match graph.node place with
  | .atom content => content
  | _ => .null

/-- The data at a place, with the places of the collections around it. No way through a graph
without repetition is longer than the number of its nodes, which gives the bound. -/
def unfold (graph : Graph) : Nat → List Nat → Nat → Data
  | 0, _, _ => .atom .null
  | bound + 1, around, place =>
    let inside (part : Nat) : Data := graph.unfold bound (place :: around) part
    match graph.node place with
    | .atom content => .atom content
    | .list items =>
      if around.contains place then .enclosing false else .list (items.map inside)
    | .pairs items =>
      if around.contains place then .enclosing false
      else .list (items.map fun (first, second) => .pair (inside first) (inside second))
    | .set members => .set (members.map graph.atomAt)
    | .mapping entries =>
      if around.contains place then .enclosing true
      else .mapping (entries.map fun (key, value) => (graph.atomAt key, inside value))

end Graph

/-- A datum with identity: a place in the graph of a file. The serial number tells the graphs of
different files apart. -/
structure Datum where
  serial : Nat
  graph : Graph
  place : Nat
deriving DecidableEq, Repr

namespace Datum

def node (datum : Datum) : Graph.Node := datum.graph.node datum.place

/-- The datum as it is shown. -/
def data (datum : Datum) : Data :=
  datum.graph.unfold (datum.graph.nodes.size + 1) [] datum.place

def goTo (datum : Datum) (place : Nat) : Datum := { datum with place }

end Datum

end LogicSignature
