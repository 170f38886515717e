import LogicSignature.Storage.Path
import LogicSignature.Text.Utf8

/-
The files that a session sees: directories and files by their places below the root, with a working
and a home directory. A look up walks a path component by component, and what stops it is part of
the answer. Components are told apart by their bytes.
-/

namespace LogicSignature

/-- The bytes of one component of a place. -/
abbrev Storage.Name := List UInt8

/-- What a name leads to. -/
inductive Storage.Entry where
  | file (content : List UInt8)
  | directory
  /-- A device that gives nothing and takes everything. -/
  | sink
deriving DecidableEq, Repr

/-- The files and directories, and the places of the working and the home directory. -/
structure Storage where
  entries : List (List Storage.Name × Storage.Entry)
  working : List Storage.Name
  home : List Storage.Name

namespace Storage

/-- No files at all. -/
def empty (working home : List Name) : Storage := ⟨[], working, home⟩

/-! ### Faults -/

/-- Why a path cannot be followed, read or written. -/
inductive Obstacle where
  | notFound
  | alreadyThere
  | notDirectory
  | isDirectory
  | nameTooLong
  | nullCharacter
  | unencodable (fault : Utf8.EncodeFault)
deriving DecidableEq, Repr

/-- An obstacle on a path. -/
structure Fault where
  obstacle : Obstacle
  path : Text
deriving DecidableEq, Repr

def Fault.message (fault : Fault) : Text :=
  match fault.obstacle with
  | .notFound => "[Errno 2] No such file or directory: " ++ fault.path.quoted
  | .alreadyThere => "[Errno 17] File exists: " ++ fault.path.quoted
  | .notDirectory => "[Errno 20] Not a directory: " ++ fault.path.quoted
  | .isDirectory => "[Errno 21] Is a directory: " ++ fault.path.quoted
  | .nameTooLong => "[Errno 36] File name too long: " ++ fault.path.quoted
  | .nullCharacter => "embedded null byte"
  | .unencodable fault => fault.message

/-! ### Looking up -/

/-- The most bytes of one component. -/
def maxNameBytes : Nat := 255

/-- The number of bytes from which on a whole path is too long. -/
def pathBytesLimit : Nat := 4096

/-- The bytes of a component; a path whose text can be encoded has only such components. -/
def nameBytes (part : Text) : Name :=
  match Utf8.encodeName part with
  | .ok bytes => bytes
  | .error _ => []

/-- The name of the directory above. -/
def upward : Name := nameBytes ".."

/-- The place from which a path starts. -/
def base (storage : Storage) : Anchor → List Name
  | .working => storage.working
  | .home _ => storage.home
  | .root | .doubleRoot => []

/-- The entry at a place. The working directory and all above it are directories. -/
def entry? (storage : Storage) (place : List Name) : Option Entry :=
  if place.isPrefixOf storage.working then some .directory else storage.entries.lookup place

/-- Follows components from a place. Only a directory has something below it, and nothing is above
the root. -/
def walk (storage : Storage) : List Name → List Name → Except Obstacle Entry
  | [], place =>
    match storage.entry? place with
    | some entry => .ok entry
    | none => .error .notFound
  | name :: rest, place =>
    match storage.entry? place with
    | none => .error .notFound
    | some (.file _) | some .sink => .error .notDirectory
    | some .directory =>
      if name == upward then storage.walk rest place.dropLast
      else if maxNameBytes < name.length then .error .nameTooLong
      else storage.walk rest (place ++ [name])

/-- What a path leads to. The home directory may be missing itself, so that it is walked to from the
root. -/
def resolve (storage : Storage) (path : Path) : Except Obstacle Entry :=
  match Utf8.encodeName path.text with
  | .error fault => .error (.unencodable fault)
  | .ok bytes =>
    let names := path.parts.map nameBytes
    if bytes.contains 0 then .error .nullCharacter
    else if pathBytesLimit ≤ bytes.length then .error .nameTooLong
    else
      match path.anchor with
      | .working => storage.walk names storage.working
      | anchor => storage.walk (storage.base anchor ++ names) []

/-- The bytes of a file. -/
def read (storage : Storage) (path : Path) : Except Fault (List UInt8) :=
  match storage.resolve path with
  | .ok (.file content) => .ok content
  | .ok .sink => .ok []
  | .ok .directory => .error ⟨.isDirectory, path.text⟩
  | .error obstacle => .error ⟨obstacle, path.text⟩

/-- Whether an entry of some form stands at a path. A name that is too long is an error, every other
obstacle means no. -/
def probe (storage : Storage) (path : Path) (form : Entry → Bool) : Except Fault Bool :=
  match storage.resolve path with
  | .ok entry => .ok (form entry)
  | .error .nameTooLong => .error ⟨.nameTooLong, path.text⟩
  | .error _ => .ok false

def Entry.isFile : Entry → Bool
  | .file _ => true
  | .directory | .sink => false

/-- Whether a path leads to anything. -/
def pathExists (storage : Storage) (path : Path) : Except Fault Bool :=
  storage.probe path (fun _ => true)

def fileExists (storage : Storage) (path : Path) : Except Fault Bool :=
  storage.probe path Entry.isFile

/-! ### Changing -/

/-- Follows names without looking at what is there. -/
def follow : List Name → List Name → List Name
  | [], place => place
  | name :: rest, place => follow rest (if name == upward then place.dropLast else place ++ [name])

/-- The place that a path leads to when all above it are directories. -/
def placeOf (storage : Storage) (path : Path) : List Name :=
  follow (path.parts.map nameBytes) (storage.base path.anchor)

/-- Puts an entry at a place, in the stead of what was there. -/
def put (storage : Storage) (place : List Name) (entry : Entry) : Storage :=
  { storage with
    entries := (place, entry) :: storage.entries.filter (fun old => old.1 != place) }

/-- Makes a directory and those above it that are missing. The bound is the number of components. -/
def makeDirectory : Nat → Storage → Path → Except Fault Storage
  | bound, storage, path =>
    match storage.resolve path with
    | .ok .directory => .ok storage
    | .ok (.file _) | .ok .sink => .error ⟨.alreadyThere, path.text⟩
    | .error .notFound =>
      match bound with
      | 0 => .error ⟨.notFound, path.text⟩
      | left + 1 =>
        match makeDirectory left storage path.parent with
        | .error fault => .error fault
        | .ok made => .ok (made.put (made.placeOf path) .directory)
    | .error obstacle => .error ⟨obstacle, path.text⟩

/-- Writes a file or makes a directory; missing directories above it are made. -/
def write (storage : Storage) (path : Path) (entry : Entry) : Except Fault Storage :=
  match entry with
  | .directory => makeDirectory path.parts.length storage path
  | .sink => .ok (storage.put (storage.placeOf path) .sink)
  | .file content =>
    match makeDirectory path.parts.length storage path.parent with
    | .error fault => .error fault
    | .ok made =>
      match made.resolve path with
      | .ok .directory => .error ⟨.isDirectory, path.text⟩
      | .ok .sink => .ok made
      | .ok (.file _) | .error .notFound => .ok (made.put (made.placeOf path) (.file content))
      | .error obstacle => .error ⟨obstacle, path.text⟩

/-- Removes a file. -/
def remove (storage : Storage) (path : Path) : Except Fault Storage :=
  match storage.resolve path with
  | .ok (.file _) | .ok .sink =>
    let place := storage.placeOf path
    .ok { storage with entries := storage.entries.filter (fun old => old.1 != place) }
  | .ok .directory => .error ⟨.isDirectory, path.text⟩
  | .error obstacle => .error ⟨obstacle, path.text⟩

end Storage

end LogicSignature
