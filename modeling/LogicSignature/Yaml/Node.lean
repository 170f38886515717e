import LogicSignature.Yaml.Plain
import LogicSignature.Yaml.Token

/-
YAML nodes: what the tokens of a text describe. Nodes are kept in a list of places; a collection
names its parts by their places. An alias is the place of the anchored node, also inside that node
itself. A text holds at most one document.
-/

namespace LogicSignature.Yaml

/-- The parts of a node. -/
inductive Body where
  | scalar (content : Text)
  | sequence (items : List Nat)
  | mapping (entries : List (Nat × Nat))
deriving DecidableEq, Repr, Inhabited

/-- A node: its type and its parts. -/
structure Node where
  tag : Tag
  body : Body
deriving DecidableEq, Repr

/-- The nodes of a document, each at its place. -/
abbrev Nodes := Array Node

/-- The node of a place where nothing is written. -/
def emptyNode : Node := ⟨.null, .scalar []⟩

def Nodes.get (nodes : Nodes) (place : Nat) : Node := (nodes[place]?).getD emptyNode

/-- Puts a node at a place that has one. -/
def Nodes.put (nodes : Nodes) (place : Nat) (node : Node) : Nodes := nodes.setIfInBounds place node

/-- The tokens that are left, the nodes so far, the places of the anchors seen, and the tag handles
of the document. -/
structure Composer where
  tokens : List Token
  nodes : Nodes
  anchors : List (String × Nat)
  handles : List (String × String)

namespace Composer

/-- The fault at the next token: the one that broke the text, or a token out of place. -/
def faultHere (composer : Composer) : Fault :=
  match composer.tokens with
  | .broken fault :: _ => fault
  | _ => .malformed

def next (composer : Composer) : Token :=
  match composer.tokens with
  | token :: _ => token
  | [] => .broken .malformed

def drop (composer : Composer) : Composer := { composer with tokens := composer.tokens.drop 1 }

/-- Adds a node and gives its place. -/
def add (composer : Composer) (node : Node) : Nat × Composer :=
  (composer.nodes.size, { composer with nodes := composer.nodes.push node })

/-- Adds the node of a place where nothing is written. -/
def addEmpty (composer : Composer) : Nat × Composer := composer.add emptyNode

def addAnchored (composer : Composer) (anchor : Option String) (node : Node) : Nat × Composer :=
  let (place, added) := composer.add node
  match anchor with
  | some name => (place, { added with anchors := (name, place) :: added.anchors })
  | none => (place, added)

/-- Gives the node at a place its parts. -/
def fill (composer : Composer) (place : Nat) (body : Body) : Composer :=
  { composer with
    nodes := composer.nodes.put place { (composer.nodes.get place) with body } }

/-- The anchor and the tag in front of a node, in either order. Behind one of them the next token is
looked at, since it may be the other one. -/
def properties (composer : Composer) :
    Except Fault (Option String × Option (Option String × String) × Composer) :=
  match composer.tokens with
  | .anchor name :: .tag handle suffix :: rest =>
    .ok (some name, some (handle, suffix), { composer with tokens := rest })
  | .tag handle suffix :: .anchor name :: rest =>
    .ok (some name, some (handle, suffix), { composer with tokens := rest })
  | .anchor _ :: .broken fault :: _ | .tag _ _ :: .broken fault :: _ => .error fault
  | .anchor name :: rest => .ok (some name, none, { composer with tokens := rest })
  | .tag handle suffix :: rest =>
    .ok (none, some (handle, suffix), { composer with tokens := rest })
  | _ => .ok (none, none, composer)

/-- The full tag in front of a node, if there is one that decides about its type. -/
def explicitTag (composer : Composer) (property : Option (Option String × String)) :
    Except Fault (Option String) :=
  match property with
  | none => .ok none
  | some (none, suffix) => .ok (some suffix)
  | some (some handle, suffix) =>
    match composer.handles.lookup handle with
    | some lead => .ok (some (lead ++ suffix))
    | none => .error .malformed

/-- What stands in front of a node: its anchor, its full tag, and what is left behind them. An
unknown handle is found before the next token is looked at, and an anchor that is taken only after
that. -/
def lead (composer : Composer) : Except Fault (Option String × Option String × Composer) :=
  match composer.properties with
  | .error fault => .error fault
  | .ok (anchor, property, body) =>
    match body.explicitTag property with
    | .error fault => .error fault
    | .ok explicit =>
      match body.next with
      | .broken fault => .error fault
      | _ =>
        if (anchor.bind (fun name => body.anchors.lookup name)).isSome then .error .malformed
        else .ok (anchor, explicit, body)

/-- The type of a scalar. Without a tag a plain scalar has the type of its form and a quoted one is
text; the tag `!` asks for the type of the form in any case. -/
def scalarTag (explicit : Option String) (content : Text) (plain : Bool) : Tag :=
  match explicit with
  | none => if plain then Plain.tag content else .text
  | some "!" => Plain.tag content
  | some text => Tag.ofText text

/-- The type of a collection. -/
def collectionTag (explicit : Option String) (standard : Tag) : Tag :=
  match explicit with
  | none => standard
  | some "!" => standard
  | some text => Tag.ofText text

/-- Where nodes may be written without being a collection in brackets. -/
inductive Context where
  | flow
  | block
  | blockOrIndentless
deriving DecidableEq

mutual

/-- A node, by its place. The bound limits the depth of calls. -/
def node (context : Context) : Nat → Composer → Except Fault (Nat × Composer)
  | 0, composer => .error composer.faultHere
  | bound + 1, composer =>
    match composer.next with
    | .alias name =>
      match composer.anchors.lookup name with
      | some place => .ok (place, composer.drop)
      | none => .error .malformed
    | _ =>
      match composer.lead with
      | .error fault => .error fault
      | .ok (anchor, explicit, body) =>
        let scalar (content : Text) (plain : Bool) (before : Composer) :
            Except Fault (Nat × Composer) :=
          .ok (before.addAnchored anchor ⟨scalarTag explicit content plain, .scalar content⟩)
        let sequence (before : Composer)
            (read : Composer → Except Fault (List Nat × Composer)) :
            Except Fault (Nat × Composer) :=
          let (place, inside) :=
            before.addAnchored anchor ⟨collectionTag explicit .sequence, .sequence []⟩
          match read inside with
          | .error fault => .error fault
          | .ok (items, after) => .ok (place, after.fill place (.sequence items))
        let mapping (before : Composer)
            (read : Composer → Except Fault (List (Nat × Nat) × Composer)) :
            Except Fault (Nat × Composer) :=
          let (place, inside) :=
            before.addAnchored anchor ⟨collectionTag explicit .mapping, .mapping []⟩
          match read inside with
          | .error fault => .error fault
          | .ok (entries, after) => .ok (place, after.fill place (.mapping entries))
        match body.next with
        | .scalar content plain => scalar content plain body.drop
        | .flowSequenceStart => sequence body.drop (flowItems true bound)
        | .flowMappingStart => mapping body.drop (flowEntries true bound)
        | token =>
          if context == .blockOrIndentless && token == .blockEntry then
            sequence body (indentlessItems bound)
          else if context != .flow && token == .blockSequenceStart then
            sequence body.drop (blockItems bound)
          else if context != .flow && token == .blockMappingStart then
            mapping body.drop (blockEntries bound)
          else if anchor.isSome || explicit.isSome then scalar [] (explicit == none) body
          else .error body.faultHere

/-- The items of a block sequence, up to the end of the block. -/
def blockItems : Nat → Composer → Except Fault (List Nat × Composer)
  | 0, composer => .error composer.faultHere
  | bound + 1, composer =>
    match composer.next with
    | .blockEntry =>
      let body := composer.drop
      let item : Except Fault (Nat × Composer) :=
        match body.next with
        | .blockEntry => .ok body.addEmpty
        | .blockEnd => .ok body.addEmpty
        | _ => node .block bound body
      match item with
      | .error fault => .error fault
      | .ok (first, after) =>
        match blockItems bound after with
        | .error fault => .error fault
        | .ok (others, final) => .ok (first :: others, final)
    | .blockEnd => .ok ([], composer.drop)
    | _ => .error composer.faultHere

/-- The items of a sequence that is not indented below its key. -/
def indentlessItems : Nat → Composer → Except Fault (List Nat × Composer)
  | 0, composer => .error composer.faultHere
  | bound + 1, composer =>
    match composer.next with
    | .blockEntry =>
      let body := composer.drop
      let item : Except Fault (Nat × Composer) :=
        match body.next with
        | .blockEntry => .ok body.addEmpty
        | .key => .ok body.addEmpty
        | .value => .ok body.addEmpty
        | .blockEnd => .ok body.addEmpty
        | _ => node .block bound body
      match item with
      | .error fault => .error fault
      | .ok (first, after) =>
        match indentlessItems bound after with
        | .error fault => .error fault
        | .ok (others, final) => .ok (first :: others, final)
    | _ => .ok ([], composer)

/-- A key or a value of a block mapping, behind its mark. -/
def blockPart : Nat → Composer → Except Fault (Nat × Composer)
  | 0, composer => .error composer.faultHere
  | bound + 1, composer =>
    match composer.next with
    | .key => .ok composer.addEmpty
    | .value => .ok composer.addEmpty
    | .blockEnd => .ok composer.addEmpty
    | _ => node .blockOrIndentless bound composer

/-- The entries of a block mapping, up to the end of the block. -/
def blockEntries : Nat → Composer → Except Fault (List (Nat × Nat) × Composer)
  | 0, composer => .error composer.faultHere
  | bound + 1, composer =>
    match composer.next with
    | .blockEnd => .ok ([], composer.drop)
    | .key =>
      match blockPart bound composer.drop with
      | .error fault => .error fault
      | .ok (key, afterKey) =>
        let value : Except Fault (Nat × Composer) :=
          match afterKey.next with
          | .value => blockPart bound afterKey.drop
          | _ => .ok afterKey.addEmpty
        match value with
        | .error fault => .error fault
        | .ok (value, after) =>
          match blockEntries bound after with
          | .error fault => .error fault
          | .ok (others, final) => .ok ((key, value) :: others, final)
    | _ => .error composer.faultHere

/-- A key or a value in brackets, behind its mark; nothing may be written there. -/
def flowPart (closing : Token) (forKey : Bool) :
    Nat → Composer → Except Fault (Nat × Composer)
  | 0, composer => .error composer.faultHere
  | bound + 1, composer =>
    let token := composer.next
    if token == .flowEntry || token == closing || (forKey && token == .value) then
      .ok composer.addEmpty
    else node .flow bound composer

/-- The value of an entry in brackets, or nothing. -/
def flowValue (closing : Token) : Nat → Composer → Except Fault (Nat × Composer)
  | 0, composer => .error composer.faultHere
  | bound + 1, composer =>
    match composer.next with
    | .value => flowPart closing false bound composer.drop
    | _ => .ok composer.addEmpty

/-- The items of a sequence in brackets, up to the closing one. A pair without braces is a mapping
of one entry. -/
def flowItems (isFirst : Bool) : Nat → Composer → Except Fault (List Nat × Composer)
  | 0, composer => .error composer.faultHere
  | bound + 1, composer =>
    if composer.next == .flowSequenceEnd then .ok ([], composer.drop)
    else if !isFirst && composer.next != .flowEntry then .error composer.faultHere
    else
      let body := if isFirst then composer else composer.drop
      if body.next == .flowSequenceEnd then .ok ([], body.drop)
      else
        let item : Except Fault (Nat × Composer) :=
          if body.next == .key then
            match flowPart .flowSequenceEnd true bound body.drop with
            | .error fault => .error fault
            | .ok (key, afterKey) =>
              match flowValue .flowSequenceEnd bound afterKey with
              | .error fault => .error fault
              | .ok (value, after) => .ok (after.add ⟨.mapping, .mapping [(key, value)]⟩)
          else node .flow bound body
        match item with
        | .error fault => .error fault
        | .ok (first, after) =>
          match flowItems false bound after with
          | .error fault => .error fault
          | .ok (others, final) => .ok (first :: others, final)

/-- The entries of a mapping in braces, up to the closing one. -/
def flowEntries (isFirst : Bool) :
    Nat → Composer → Except Fault (List (Nat × Nat) × Composer)
  | 0, composer => .error composer.faultHere
  | bound + 1, composer =>
    if composer.next == .flowMappingEnd then .ok ([], composer.drop)
    else if !isFirst && composer.next != .flowEntry then .error composer.faultHere
    else
      let body := if isFirst then composer else composer.drop
      if body.next == .flowMappingEnd then .ok ([], body.drop)
      else
        let entry : Except Fault ((Nat × Nat) × Composer) :=
          if body.next == .key then
            match flowPart .flowMappingEnd true bound body.drop with
            | .error fault => .error fault
            | .ok (key, afterKey) =>
              match flowValue .flowMappingEnd bound afterKey with
              | .error fault => .error fault
              | .ok (value, after) => .ok ((key, value), after)
          else
            match node .flow bound body with
            | .error fault => .error fault
            | .ok (key, after) =>
              let (value, final) := after.addEmpty
              .ok ((key, value), final)
        match entry with
        | .error fault => .error fault
        | .ok (first, after) =>
          match flowEntries false bound after with
          | .error fault => .error fault
          | .ok (others, final) => .ok (first :: others, final)

end

/-- The tag handles that every document has. -/
def standardHandles : List (String × String) := [("!", "!"), ("!!", coreTagLead)]

/-- The directives in front of a document: the handles they define, and the tokens behind them. -/
def directives : List Token → Bool → List (String × String) →
    Except Fault (List (String × String) × List Token)
  | .versionDirective major :: rest, versionSeen, handles =>
    if versionSeen || major != 1 then .error .malformed else directives rest true handles
  | .tagDirective handle lead :: rest, versionSeen, handles =>
    if (handles.lookup handle).isSome then .error .malformed
    else directives rest versionSeen (handles ++ [(handle, lead)])
  | .otherDirective :: rest, versionSeen, handles => directives rest versionSeen handles
  | rest, _, handles => .ok (handles ++ standardHandles, rest)

/-- Nothing may follow the document but end marks. A second document is malformed, but its
directives are read first. -/
def finishStream (tokens : List Token) : Except Fault Unit :=
  match tokens.dropWhile (· == .documentEnd) with
  | .streamEnd :: _ => .ok ()
  | rest =>
    match directives rest false [] with
    | .error fault => .error fault
    | .ok (_, .broken fault :: _) => .error fault
    | .ok _ => .error .malformed

end Composer

/-- A document: its nodes and the place of the outermost one. -/
structure Document where
  nodes : Nodes
  root : Nat

namespace Composer

/-- The rest of a document, from its first node on. -/
def document (tokens : List Token) (handles : List (String × String)) : Except Fault Document :=
  match node .block (4 * tokens.length + 4) ⟨tokens, #[], [], handles⟩ with
  | .error fault => .error fault
  | .ok (root, after) =>
    match finishStream after.tokens with
    | .error fault => .error fault
    | .ok () => .ok ⟨after.nodes, root⟩

/-- A document with a start mark, behind its directives. -/
def explicitDocument (tokens : List Token) : Except Fault Document :=
  match directives tokens false [] with
  | .error fault => .error fault
  | .ok (handles, .documentStart :: rest) =>
    match rest with
    | .documentStart :: _ => .error .malformed
    | .documentEnd :: _ | .streamEnd :: _ | .versionDirective _ :: _ | .tagDirective _ _ :: _
    | .otherDirective :: _ =>
      match finishStream rest with
      | .error fault => .error fault
      | .ok () => .ok ⟨#[emptyNode], 0⟩
    | _ => document rest handles
  | .ok (_, .broken fault :: _) => .error fault
  | .ok _ => .error .malformed

end Composer

/-- The document of the tokens of a text, if they hold one. -/
def compose (tokens : List Token) : Except Fault (Option Document) :=
  match tokens with
  | .streamEnd :: _ => .ok none
  | .versionDirective _ :: _ | .tagDirective _ _ :: _ | .otherDirective :: _
  | .documentStart :: _ =>
    match Composer.explicitDocument tokens with
    | .error fault => .error fault
    | .ok found => .ok (some found)
  | _ =>
    match Composer.document tokens Composer.standardHandles with
    | .error fault => .error fault
    | .ok found => .ok (some found)

end LogicSignature.Yaml
