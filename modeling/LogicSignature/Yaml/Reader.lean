import LogicSignature.Data.Arrangement
import LogicSignature.Data.Graph
import LogicSignature.Yaml.Meaning
import LogicSignature.Yaml.Merge

/-
Reading YAML: from the nodes of a text to the data graph they stand for. The type of a node decides
how it is read. A collection is entered into the graph at once and filled later, after all that was
entered before it; so a collection may hold itself, and of several faults the one nearest to the
outermost node is found first.
-/

namespace LogicSignature.Yaml

/-- A collection that is in the graph and waits for its parts. -/
structure Task where
  source : Nat
  target : Nat

/-- The nodes of a document, the graph so far, the place of each node that is in the graph, and the
collections that wait. All names of the undefined number are one datum. -/
structure Builder where
  nodes : Nodes
  graph : Array Graph.Node
  made : Array (Option Nat)
  waiting : List Task
  undefinedPlace : Option Nat

namespace Builder

def start (nodes : Nodes) : Builder := ⟨nodes, #[], Array.replicate nodes.size none, [], none⟩

/-- The content of a scalar. A mapping with a value key stands for the scalar under that key. With
more steps than there are nodes, value keys lead in a circle. -/
def content (nodes : Nodes) : Nat → Nat → Except Fault Text
  | 0, _ => .error (.misfit .endless)
  | bound + 1, place =>
    match (nodes.get place).body with
    | .scalar content => .ok content
    | .sequence _ => .error .malformed
    | .mapping entries =>
      match entries.find? (fun entry => (nodes.get entry.1).tag == .valueKey) with
      | some (_, value) => content nodes bound value
      | none => .error .malformed

/-- Adds a node to the graph as the datum of a place. -/
def add (builder : Builder) (source : Nat) (node : Graph.Node) : Nat × Builder :=
  let target := builder.graph.size
  (target,
    { builder with
      graph := builder.graph.push node
      made := builder.made.setIfInBounds source (some target) })

/-- Adds an empty collection that waits for its parts. -/
def addWaiting (builder : Builder) (source : Nat) (node : Graph.Node) : Nat × Builder :=
  let (target, added) := builder.add source node
  (target, { added with waiting := ⟨source, target⟩ :: added.waiting })

/-- Whether a scalar names the undefined number. -/
def namesUndefined (content : Text) : Bool :=
  (Numeral.takeSign (Meaning.withoutLines content).lower).2 == ".nan"

def addScalar (builder : Builder) (source : Nat) (tag : Tag) : Except Fault (Nat × Builder) :=
  match content builder.nodes (builder.nodes.size + 1) source with
  | .error fault => .error fault
  | .ok text =>
    match tag, (builder.nodes.get source).body with
    | .timestamp, .mapping _ => .error (.misfit .timestampParts)
    | _, _ =>
      match Meaning.atom tag text with
      | .error fault => .error fault
      | .ok atom =>
        if tag == .real && namesUndefined text then
          match builder.undefinedPlace with
          | some target =>
            .ok (target,
              { builder with made := builder.made.setIfInBounds source (some target) })
          | none =>
            let (target, added) := builder.add source (.atom atom)
            .ok (target, { added with undefinedPlace := some target })
        else .ok (builder.add source (.atom atom))

/-- The place in the graph of a node, which is added if it is not there yet. No datum has the type
of a key mark or a type without a name, whatever the content is. -/
def enter (builder : Builder) (source : Nat) : Except Fault (Nat × Builder) :=
  match (builder.made[source]?).join with
  | some target => .ok (target, builder)
  | none =>
    match (builder.nodes.get source).tag with
    | .sequence => .ok (builder.addWaiting source (.list []))
    | .mapping => .ok (builder.addWaiting source (.mapping []))
    | .set => .ok (builder.addWaiting source (.set []))
    | .orderedMapping | .pairs => .ok (builder.addWaiting source (.pairs []))
    | .merge | .valueKey | .tuple | .unknown => .error .malformed
    | tag => builder.addScalar source tag

/-- Enters several nodes, in order. -/
def enterAll (builder : Builder) : List Nat → Except Fault (List Nat × Builder)
  | [] => .ok ([], builder)
  | source :: rest =>
    match builder.enter source with
    | .error fault => .error fault
    | .ok (target, next) =>
      match next.enterAll rest with
      | .error fault => .error fault
      | .ok (others, final) => .ok (target :: others, final)

def isKey (builder : Builder) (place : Nat) : Bool :=
  match builder.graph[place]? with
  | some (.atom _) => true
  | _ => false

/-- Whether two keys are the same: one datum, or equal data. -/
def sameKey (builder : Builder) (left right : Nat) : Bool :=
  let graph : Graph := ⟨builder.graph⟩
  left == right || (graph.atomAt left).same (graph.atomAt right)

/-- Sets the value of a key: in place when the key is present, else at the end. -/
def setEntry (builder : Builder) (key value : Nat) : List (Nat × Nat) → List (Nat × Nat)
  | [] => [(key, value)]
  | (other, old) :: rest =>
    if builder.sameKey other key then (other, value) :: rest
    else (other, old) :: setEntry builder key value rest

/-- Enters the entries of a mapping, one after the other. A later value of a key replaces an earlier
one. -/
def enterEntries (builder : Builder) :
    List (Nat × Nat) → List (Nat × Nat) → Except Fault (List (Nat × Nat) × Builder)
  | [], done => .ok (done, builder)
  | (keySource, valueSource) :: rest, done =>
    match builder.enter keySource with
    | .error fault => .error fault
    | .ok (key, keyed) =>
      if !keyed.isKey key then .error .malformed
      else
        match keyed.enter valueSource with
        | .error fault => .error fault
        | .ok (value, next) => next.enterEntries rest (next.setEntry key value done)

/-- Enters the entries of a mapping with all that it merges. -/
def enterMapping (builder : Builder) (source : Nat) :
    Except Fault (List (Nat × Nat) × Builder) :=
  match (builder.nodes.get source).body with
  | .mapping _ =>
    match builder.nodes.merge source with
    | .error fault => .error fault
    | .ok nodes => { builder with nodes }.enterEntries (nodes.entries source) []
  | _ => .error .malformed

/-- Enters the pairs of mappings that have one entry each. -/
def enterPairs (builder : Builder) : List Nat → Except Fault (List (Nat × Nat) × Builder)
  | [] => .ok ([], builder)
  | source :: rest =>
    match (builder.nodes.get source).body with
    | .mapping [(keySource, valueSource)] =>
      match builder.enter keySource with
      | .error fault => .error fault
      | .ok (key, keyed) =>
        match keyed.enter valueSource with
        | .error fault => .error fault
        | .ok (value, next) =>
          match next.enterPairs rest with
          | .error fault => .error fault
          | .ok (others, final) => .ok ((key, value) :: others, final)
    | _ => .error .malformed

def finish (builder : Builder) (task : Task) (node : Graph.Node) : Builder :=
  { builder with graph := builder.graph.setIfInBounds task.target node }

/-- Fills a collection. -/
def fill (builder : Builder) (task : Task) : Except Fault Builder :=
  let node := builder.nodes.get task.source
  match node.tag, node.body with
  | .sequence, .sequence items =>
    match builder.enterAll items with
    | .error fault => .error fault
    | .ok (places, next) => .ok (next.finish task (.list places))
  | .mapping, _ =>
    match builder.enterMapping task.source with
    | .error fault => .error fault
    | .ok (entries, next) => .ok (next.finish task (.mapping entries))
  | .set, _ =>
    match builder.enterMapping task.source with
    | .error fault => .error fault
    | .ok (entries, next) =>
      let members := Arrangement.ofMembers (Graph.atomAt ⟨next.graph⟩) (entries.map Prod.fst)
      .ok (next.finish task (.set members))
  | .orderedMapping, .sequence items | .pairs, .sequence items =>
    match builder.enterPairs items with
    | .error fault => .error fault
    | .ok (pairs, next) => .ok (next.finish task (.pairs pairs))
  | _, _ => .error .malformed

/-- Fills collections in the order in which they were entered. No node waits twice, which gives the
bound; the first list holds those of the current round, the builder those of the next. -/
def fillAll : Nat → List Task → Builder → Except Fault Builder
  | 0, _, builder => .ok builder
  | bound + 1, task :: rest, builder =>
    match builder.fill task with
    | .error fault => .error fault
    | .ok next => fillAll bound rest next
  | bound + 1, [], builder =>
    match builder.waiting.reverse with
    | [] => .ok builder
    | round => fillAll bound round { builder with waiting := [] }

end Builder

/-- The data of a document, as the place of the outermost datum in a graph. -/
def Document.data (document : Document) : Except Fault (Graph × Nat) :=
  match (Builder.start document.nodes).enter document.root with
  | .error fault => .error fault
  | .ok (root, entered) =>
    match Builder.fillAll (2 * document.nodes.size + 2) [] entered with
    | .error fault => .error fault
    | .ok filled => .ok (⟨filled.graph⟩, root)

/-- The data of a text, with the fault that lies beyond it if there is one. A text without a
document is the null datum. -/
def parse (text : List Char) (beyond : Option Fault) : Except Fault (Graph × Nat) :=
  match compose (tokens text beyond) with
  | .error fault => .error fault
  | .ok none => .ok (⟨#[.atom .null]⟩, 0)
  | .ok (some document) => document.data

end LogicSignature.Yaml
