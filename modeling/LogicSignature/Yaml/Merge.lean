import LogicSignature.Yaml.Node

/-
Merge keys. The entries of the mappings under a merge key come in front of the entries of the
mapping itself, whose own entries therefore win; of several merged mappings the earlier ones win.
Merging replaces the entries of a mapping for good, and it removes a merge key before it looks at
what is under it, so that mappings which merge each other come to an end.
-/

namespace LogicSignature.Yaml

namespace Nodes

/-- The entries of a mapping; other nodes have none. -/
def entries (nodes : Nodes) (place : Nat) : List (Nat × Nat) :=
  match (nodes.get place).body with
  | .mapping entries => entries
  | _ => []

def setEntries (nodes : Nodes) (place : Nat) (entries : List (Nat × Nat)) : Nodes :=
  nodes.put place { (nodes.get place) with body := .mapping entries }

def isMerge (nodes : Nodes) (entry : Nat × Nat) : Bool := (nodes.get entry.1).tag == .merge

/-- Value keys that stand in a mapping are texts. -/
def retag (nodes : Nodes) (entries : List (Nat × Nat)) : Nodes :=
  entries.foldl
    (fun current entry =>
      let key := current.get entry.1
      if key.tag == .valueKey then current.put entry.1 { key with tag := .text } else current)
    nodes

/-- The number of merge keys in all nodes. -/
def mergeCount (nodes : Nodes) : Nat :=
  nodes.foldl
    (fun total node =>
      match node.body with
      | .mapping entries => total + (entries.filter nodes.isMerge).length
      | _ => total)
    0

/-- Merges into a mapping, from the entry with an index on, with the entries merged so far. Every
deeper call has removed a merge key, which gives the bound. -/
def mergeFrom : Nat → Nat → Nat → List (Nat × Nat) → Nodes → Except Fault Nodes
  | 0, _, _, _, _ => .error .malformed
  | bound + 1, place, index, merged, nodes =>
    let all := nodes.entries place
    let passed := (all.drop index).takeWhile (fun entry => !nodes.isMerge entry)
    let plain := nodes.retag passed
    match all.drop (index + passed.length) with
    | [] => .ok (if merged.isEmpty then plain else plain.setEntries place (merged ++ all))
    | (_, value) :: rest =>
      let reached := index + passed.length
      let removed := plain.setEntries place (all.take reached ++ rest)
      -- Merges one mapping; the entries of the later ones come first.
      let mergeItem (gathered : List (Nat × Nat) × Nodes) (item : Nat) :
          Except Fault (List (Nat × Nat) × Nodes) :=
        match (gathered.2.get item).body with
        | .mapping _ =>
          match mergeFrom bound item 0 [] gathered.2 with
          | .error fault => .error fault
          | .ok next => .ok (next.entries item ++ gathered.1, next)
        | _ => .error .malformed
      let items :=
        match (removed.get value).body with
        | .sequence items => items
        | _ => [value]
      match items.foldlM mergeItem ([], removed) with
      | .error fault => .error fault
      | .ok (more, next) => mergeFrom bound place reached (merged ++ more) next

/-- Replaces the merge keys of a mapping by the entries under them. -/
def merge (nodes : Nodes) (place : Nat) : Except Fault Nodes :=
  let bound := if (nodes.entries place).any nodes.isMerge then nodes.mergeCount + 1 else 1
  mergeFrom bound place 0 [] nodes

end Nodes

end LogicSignature.Yaml
