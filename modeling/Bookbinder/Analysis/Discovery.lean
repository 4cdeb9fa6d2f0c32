import Bookbinder.Analysis.Filter
import Bookbinder.Script.Dialect

/-!
# Discovery of sources

The sources of a project are the regular files below its root that have a known dialect and that the
filter accepts. Links are followed, except those that lead nowhere and those that lead to a directory
they lie in. Directories that hold no sources of the project itself are not entered.

A source is known by its names from the root down, and sources come in the order of these.
-/

namespace Bookbinder

namespace Disk

/-- Names of directories that are never entered. -/
def skippedDirectories : List Text := ["node_modules", ".git", ".hg", ".svn"]

/-- The directory of this name is entered. -/
def isEntered (name : Text) : Bool := !skippedDirectories.contains name

/-- The regular files below the directory `here`, which is reached from `root` over `names`. The
directories on the way are `above`, and `fuel` bounds the depth. -/
def filesFrom (d : Disk) (root : Location) :
    Nat → List Location → List Text → Location → List (List Text)
  | 0, _, _, _ => []
  | fuel + 1, above, names, here =>
    (d.children here).flatMap fun child =>
      let names := names ++ [child.1]
      match child.2 with
      | .file _ => [names]
      | .directory =>
        if isEntered child.1 then d.filesFrom root fuel (here :: above) names (here ++ [child.1])
        else []
      | .link _ =>
        match d.followFrom maxLinks [] (root ++ names) with
        | .ok (.file ..) => [names]
        | .ok (.directory there) =>
          if isEntered child.1 && !(here :: above).contains there then
            d.filesFrom root fuel (here :: above) names there
          else []
        | _ => []

/-- A depth that no walk exceeds: each link leads to a directory that is not above it, and between two
links the way goes down in the tree. -/
def maxDepth (d : Disk) : Nat := (d.nodes.length + 1) * (d.nodes.length + 1)

/-- The regular files below a location; a file lies below itself. -/
def files (d : Disk) (root : Location) : List (List Text) :=
  match d.node? root with
  | some (.file _) => [[]]
  | some .directory => d.filesFrom root d.maxDepth [] [] root
  | _ => []

end Disk

/-- The path of a file that is reached from a root over names. -/
def sourcePath (root : Location) (names : List Text) : Path := Location.path (root ++ names)

/-- The file is a source that the filter accepts. -/
def Filter.isSource (f : Filter) (root : Location) (names : List Text) : Bool :=
  (Dialect.ofPath? (sourcePath root names)).isSome && f.accepts (joinWith ['/'] names)

/-- The sources below a root in order. -/
def Filter.discover (f : Filter) (d : Disk) (root : Location) : List (List Text) :=
  ((d.files root).filter (f.isSource root)).mergeSort (lexLe textLe)

end Bookbinder
