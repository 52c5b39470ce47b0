import ChipEight.Files.Path
import ChipEight.Files.Problem
import ChipEight.Picture

/-!
# File trees

A file tree holds directories, files and pictures below a working directory. Its operations fail for
the reasons for which a file system refuses them, and in the same order: a path that is no path or
too long comes first, then a name on the way that is missing, no directory, closed or too long, and
then anything about the last name.

The system may keep places closed, and others read-only. A place that can be written to can be read.
-/

namespace ChipEight

/-- What stands at a place of a file tree. -/
inductive Node where
  | directory
  | file (bytes : List UInt8)
  | picture (p : Picture)
deriving DecidableEq, Repr

/-- A place: the names on the way to it. Places above the working directory start with two dots,
places from the top of the system with a slash. -/
abbrev Place := List String

/-- The places below a working directory at which something stands, and what the system allows
there. -/
structure FileTree where
  entries : List (Place × Node)
  /-- Why a place is closed: what stands there is not read, written to or gone on from. -/
  closed : Place → Option FileProblem := fun _ => none
  /-- Why a place is not written to although it is not closed. -/
  readOnly : Place → Option FileProblem := fun _ => none
  /-- The bytes of a picture. -/
  encode : Picture → List UInt8 := fun _ => []

namespace FileTree

/-- An empty working directory. -/
def empty : FileTree := { entries := [] }

/-- The bytes of the longest path. -/
def longestPath : Nat := 4095

/-- The bytes of the longest name. -/
def longestName : Nat := 255

/-- The working directory, the directories above it and the top of the system are always there. -/
def isAnchor : Place → Bool
  | [] => true
  | ["/"] => true
  | place => place.all (· == "..")

/-- What stands at a place. -/
def node? (t : FileTree) (place : Place) : Option Node :=
  if isAnchor place then some .directory
  else (t.entries.find? fun e => e.1 == place).map Prod.snd

/-- The place one directory up. -/
def above (place : Place) : Place :=
  if place = ["/"] then place
  else if place.all (· == "..") then place ++ [".."]
  else place.dropLast

/-- The place to which a name leads from a place. The empty name, after a slash at the end, only
asks for a directory. -/
def enter (t : FileTree) (place : Place) (name : String) : Except FileProblem Place :=
  match t.node? place with
  | none => .error .notFound
  | some .directory =>
    if name = "" then .ok place
    else
      match t.closed place with
      | some problem => .error problem
      | none =>
        if name = "." then .ok place
        else if name = ".." then .ok (above place)
        else if longestName < name.utf8ByteSize then .error .nameTooLong
        else .ok (place ++ [name])
  | some _ => .error .notDirectory

/-- Follows names from a place. -/
def walk (t : FileTree) (place : Place) : List String → Except FileProblem Place
  | [] => .ok place
  | name :: rest => do t.walk (← t.enter place name) rest

/-- Does a text have a null character? -/
def hasNull (text : String) : Bool := text.toList.contains (Char.ofNat 0)

/-- The place that a path as it was given leads to. -/
def locate (t : FileTree) (path : String) : Except FileError Place :=
  if hasNull path then .error .nullByte
  else if path.isEmpty then .error (.refused .notFound path)
  else if longestPath < path.utf8ByteSize then .error (.refused .nameTooLong path)
  else
    let start : Place := if path.startsWith "/" then ["/"] else []
    (t.walk start (Path.pieces path)).mapError fun problem => .refused problem path

/-- What a path as it was given leads to. -/
def at? (t : FileTree) (path : String) : Option Node :=
  match t.locate path with
  | .ok place => t.node? place
  | .error _ => none

/-- Does the path lead to a directory? -/
def hasDirectory (t : FileTree) (path : String) : Bool :=
  match t.at? path with
  | some .directory => true
  | _ => false

/-- Does the path lead to a file? A problem on the way is handed on unless it says that nothing is
there. -/
def hasFile (t : FileTree) (path : String) : Except FileError Bool :=
  match t.locate path with
  | .error e => if e.isAbsence then .ok false else .error e
  | .ok place =>
    match t.node? place with
    | some (.file _) | some (.picture _) => .ok true
    | _ => .ok false

/-- The tree with something standing at a place. -/
def put (t : FileTree) (place : Place) (node : Node) : FileTree :=
  { t with entries := t.entries.filter (fun e => e.1 != place) ++ [(place, node)] }

/-- The place that a path names, whatever stands on the way to it. -/
def placeOf (path : Path) : Place :=
  path.parts.foldl (fun place name => if name = ".." then above place else place ++ [name])
    (if path.root.isEmpty then [] else ["/"])

/-- The tree with something standing at the place of a path, and with directories where nothing
stands on the way to it. -/
def plant (t : FileTree) (path : Path) (node : Node) : FileTree :=
  let place := placeOf path
  let ways := ((List.range place.length).map fun (n : Nat) => place.take n).filter fun way =>
    (t.node? way).isNone
  (ways.foldl (fun t way => t.put way .directory) t).put place node

/-- The bytes of a file. -/
def read (t : FileTree) (path : String) : Except FileError (List UInt8) := do
  let place ← t.locate path
  match t.node? place, t.closed place with
  | none, _ => throw (.refused .notFound path)
  | some _, some problem => throw (.refused problem path)
  | some .directory, none => throw (.refused .isDirectory path)
  | some (.file bytes), none => return bytes
  | some (.picture p), none => return t.encode p

/-- Why nothing is written at a place. -/
def barrier (t : FileTree) (place : Place) : Option FileProblem :=
  (t.closed place).or (t.readOnly place)

/-- Makes a directory. -/
def makeDirectory (t : FileTree) (path : String) : Except FileError FileTree := do
  let place ← t.locate path
  match t.node? place, t.barrier place with
  | some _, _ => throw (.refused .alreadyThere path)
  | none, some problem => throw (.refused problem path)
  | none, none => return t.put place .directory

/-- Makes a directory if it is not there. -/
def ensureDirectory (t : FileTree) (path : String) : Except FileError FileTree :=
  match t.makeDirectory path with
  | .ok t => .ok t
  | .error e => if t.hasDirectory path then .ok t else .error e

/-- Makes the directory of the names, given from the last to the first, if it is not there, and
those on the way to it. -/
def makeDirectoriesTo (t : FileTree) (root : String) :
    (names : List String) → Except FileError FileTree
  | [] => t.ensureDirectory (Path.text ⟨root, []⟩)
  | name :: names =>
    let path := Path.text ⟨root, (name :: names).reverse⟩
    match t.ensureDirectory path with
    | .ok t => .ok t
    | .error e =>
      if e.isNotFound then do
        let t ← t.makeDirectoriesTo root names
        t.ensureDirectory path
      else .error e

/-- Makes a directory if it is not there, and those on the way to it. -/
def makeDirectories (t : FileTree) (path : Path) : Except FileError FileTree :=
  t.makeDirectoriesTo path.root path.parts.reverse

/-- Writes a file, in place of one that is there. -/
def write (t : FileTree) (path : String) (node : Node) : Except FileError FileTree := do
  let place ← t.locate path
  match t.node? place, t.barrier place with
  | some .directory, _ => throw (.refused .isDirectory path)
  | _, some problem => throw (.refused problem path)
  | _, none => return t.put place node

/-- The tree without what stands at a path and below it. -/
def remove (t : FileTree) (path : String) : FileTree :=
  match t.locate path with
  | .ok place => { t with entries := t.entries.filter fun e => !place.isPrefixOf e.1 }
  | .error _ => t

/-- The pictures in a directory, by name. -/
def picturesIn (t : FileTree) (path : String) : List (String × Picture) :=
  match t.locate path with
  | .ok place =>
    if t.node? place = some .directory then
      let found := t.entries.filterMap fun e =>
        match e.2 with
        | .picture p => if e.1.dropLast = place then some (e.1.getLastD "", p) else none
        | _ => none
      found.mergeSort fun a b => !(b.1 < a.1)
    else []
  | .error _ => []

end FileTree

end ChipEight
