import Bookbinder.Path

/-!
# File trees

A `Disk` is a file tree with regular files, directories and symbolic links, seen from a working
directory. A node is known by its `Location`, the names from the root down to it. `Disk.follow` leads
from a path to a location the way a file system does: relative paths start at the working directory, a
link is replaced by its target wherever it stands, and after forty links the search is given up.
-/

namespace Bookbinder

/-- The names from the root of a disk down to a node. -/
abbrev Location := List Text

/-- The absolute path of a location. -/
def Location.path (loc : Location) : Path := '/' :: joinWith ['/'] loc

/-- What lies at a location. -/
inductive Node where
  | file (bytes : ByteArray)
  | directory
  | link (target : Path)
deriving BEq

/-- Why an operation on a disk fails. -/
inductive DiskError where
  | notFound
  | alreadyExists
  | notDirectory
  | isDirectory
  | nameTooLong
  | tooManyLinks
  /-- The bytes of a file are not UTF-8. -/
  | notText
deriving DecidableEq, Repr

/-- The wording of a disk error. -/
def DiskError.message : DiskError → Text
  | notFound => "No such file or directory (os error 2)"
  | alreadyExists => "File exists (os error 17)"
  | notDirectory => "Not a directory (os error 20)"
  | isDirectory => "Is a directory (os error 21)"
  | nameTooLong => "File name too long (os error 36)"
  | tooManyLinks => "Too many levels of symbolic links (os error 40)"
  | notText => "stream did not contain valid UTF-8"

/-- A file tree and a working directory. The root is always a directory and has no entry. -/
structure Disk where
  nodes : List (Location × Node) := []
  workDir : Location := []

/-- Where a path leads. -/
inductive Found where
  | file (loc : Location) (bytes : ByteArray)
  | directory (loc : Location)
  /-- Nothing is there, but the directory that would hold it is. -/
  | missing (loc : Location)

namespace Disk

/-! ## Nodes -/

/-- The node at a location. -/
def node? (d : Disk) (loc : Location) : Option Node :=
  if loc = [] then some .directory else d.nodes.lookup loc

/-- Puts a node at a location, over what was there. -/
def put (d : Disk) (loc : Location) (n : Node) : Disk :=
  { d with nodes := (loc, n) :: d.nodes.filter (·.1 != loc) }

/-- The names in a directory with their nodes. -/
def children (d : Disk) (dir : Location) : List (Text × Node) :=
  d.nodes.filterMap fun e =>
    match e.1.getLast? with
    | some name => if e.1.dropLast = dir then some (name, e.2) else none
    | none => none

/-! ## Paths -/

/-- The number of links a path may lead through. -/
def maxLinks : Nat := 40

/-- The number of bytes a name may have. -/
def maxName : Nat := 255

/-- Follows the pieces of a path from the directory `here`; `links` more links may be met. -/
def followFrom (d : Disk) (links : Nat) (here : Location) (pieces : List Text) :
    Except DiskError Found :=
  match pieces with
  | [] => .ok (.directory here)
  | piece :: rest =>
    if piece = [] ∨ piece = ['.'] then d.followFrom links here rest
    else if piece = ['.', '.'] then d.followFrom links here.dropLast rest
    else if maxName < byteLength piece then .error .nameTooLong
    else
      let loc := here ++ [piece]
      match d.node? loc with
      | none => if rest = [] then .ok (.missing loc) else .error .notFound
      | some .directory => d.followFrom links loc rest
      | some (.file bytes) => if rest = [] then .ok (.file loc bytes) else .error .notDirectory
      | some (.link target) =>
        match links with
        | 0 => .error .tooManyLinks
        | n + 1 =>
          d.followFrom n (if target.isAbsolute then [] else here) (splitWhen (· == '/') target ++ rest)
termination_by (links, pieces.length)

/-- Follows a path. The empty path leads nowhere. -/
def follow (d : Disk) (p : Path) : Except DiskError Found :=
  if p = [] then .error .notFound
  else d.followFrom maxLinks (if p.isAbsolute then [] else d.workDir) (splitWhen (· == '/') p)

/-! ## Reading -/

/-- Something is there, links followed. -/
def pathExists (d : Disk) (p : Path) : Bool :=
  match d.follow p with
  | .ok (.file ..) | .ok (.directory _) => true
  | _ => false

/-- A directory is there, links followed. -/
def isDirectory (d : Disk) (p : Path) : Bool :=
  match d.follow p with
  | .ok (.directory _) => true
  | _ => false

/-- The location of what a path leads to. -/
def canonical (d : Disk) (p : Path) : Except DiskError Location :=
  match d.follow p with
  | .ok (.file loc _) | .ok (.directory loc) => .ok loc
  | .ok (.missing _) => .error .notFound
  | .error e => .error e

/-- The text in a file. -/
def decode (bytes : ByteArray) : Except DiskError Text :=
  match String.fromUTF8? bytes with
  | some s => .ok s.toList
  | none => .error .notText

/-- The bytes of a text. -/
def encode (t : Text) : ByteArray := (String.ofList t).toUTF8

/-- Reads the text of a file. -/
def readText (d : Disk) (p : Path) : Except DiskError Text :=
  match d.follow p with
  | .ok (.file _ bytes) => decode bytes
  | .ok (.directory _) => .error .isDirectory
  | .ok (.missing _) => .error .notFound
  | .error e => .error e

/-! ## Writing -/

/-- Writes a file, over what it held. -/
def writeText (d : Disk) (p : Path) (t : Text) : Except DiskError Disk :=
  match d.follow p with
  | .ok (.file loc _) | .ok (.missing loc) => .ok (d.put loc (.file (encode t)))
  | .ok (.directory _) => .error .isDirectory
  | .error e => .error e

/-- Makes one directory in a directory that is there already. -/
def makeDirectory (d : Disk) (p : Path) : Except DiskError Disk :=
  match p.components.getLast? with
  | some (.name name) =>
    let parent := match Path.ofComponents p.parentComponents with
      | [] => ['.']
      | dir => dir
    match d.follow parent with
    | .ok (.directory dir) =>
      if maxName < byteLength name then .error .nameTooLong
      else if (d.node? (dir ++ [name])).isSome then .error .alreadyExists
      else .ok (d.put (dir ++ [name]) .directory)
    | .ok (.file ..) => .error .notDirectory
    | .ok (.missing _) => .error .notFound
    | .error e => .error e
  | _ => if d.pathExists p then .error .alreadyExists else .error .notFound

/-- Makes a directory, keeping one that is there already. -/
def ensureDirectory (d : Disk) (p : Path) : Except DiskError Disk :=
  match d.makeDirectory p with
  | .ok d => .ok d
  | .error e => if d.isDirectory p then .ok d else .error e

/-- Makes a directory and the directories above it, given the components of its path. The answer holds
the disk as far as it was changed, also when the last directory cannot be made. -/
def ensureDirectories (d : Disk) (comps : List Path.Component) : Disk × Option DiskError :=
  let p := Path.ofComponents comps
  if comps = [] then (d, none)
  else match d.makeDirectory p with
    | .ok d => (d, none)
    | .error .notFound =>
      match d.ensureDirectories comps.dropLast with
      | (d, some e) => (d, some e)
      | (d, none) =>
        match d.ensureDirectory p with
        | .ok d => (d, none)
        | .error e => (d, some e)
    | .error e => if d.isDirectory p then (d, none) else (d, some e)
termination_by comps.length
decreasing_by
  rename_i h
  simp only [List.length_dropLast]
  have := List.length_pos_iff.2 h
  omega

end Disk

end Bookbinder
