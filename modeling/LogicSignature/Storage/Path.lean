import LogicSignature.Text.Quoted

/-
File paths in a normal form: empty and `.` components are dropped, `..` components stay. A path
starts at the working directory, at the root, or at the home directory of the user.
-/

namespace LogicSignature.Storage

/-- Where a path starts. Two leading slashes are kept apart from one. -/
inductive Anchor where
  | working
  | root
  | doubleRoot
  | home (shown : Text)
deriving DecidableEq, Repr

/-- A path in normal form. -/
structure Path where
  anchor : Anchor
  parts : List Text
deriving DecidableEq, Repr

namespace Path

def anchorOf : Text → Anchor
  | .char '/' :: .char '/' :: .char '/' :: _ => .root
  | .char '/' :: .char '/' :: _ => .doubleRoot
  | .char '/' :: _ => .root
  | _ => .working

/-- The components that count. -/
def components (text : Text) : List Text :=
  (Text.splitOn '/' text).filter (fun part => part != [] && part != Text.ofString ".")

def ofText (text : Text) : Path := ⟨anchorOf text, components text⟩

def text (path : Path) : Text :=
  let body := Text.join "/" path.parts
  match path.anchor with
  | .working => if path.parts.isEmpty then "." else body
  | .root => "/" ++ body
  | .doubleRoot => "//" ++ body
  | .home shown => shown ++ "/" ++ body

/-- The last component. -/
def name (path : Path) : Text := path.parts.getLastD []

/-- The directory that a path lies in, by its components. -/
def parent (path : Path) : Path := { path with parts := path.parts.dropLast }

/-- The end of the last component from its last dot on, unless the dot is its first or its last
code point. -/
def suffix (path : Path) : Text :=
  let reversed := path.name.reverse
  let tail := reversed.takeWhile (fun point => point != .char '.')
  match reversed.drop tail.length with
  | [] => []
  | [_] => []
  | _ => if tail.isEmpty then [] else .char '.' :: tail.reverse

end Path

end LogicSignature.Storage
