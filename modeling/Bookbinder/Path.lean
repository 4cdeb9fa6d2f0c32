import Bookbinder.Text.Basic

/-!
# Paths

Paths are texts with `/` between their components. Empty components do not count, and neither does a
`.` except at the start of a relative path, so `a//b/./c/` has the components `a`, `b` and `c`. What
a path means is decided by its components: file name, stem and extension all go through
`Path.components`.
-/

namespace Bookbinder

/-- A path as it was written. -/
abbrev Path := Text

namespace Path

/-- One step of a path. -/
inductive Component where
  | root
  | current
  | parent
  | name (text : Text)
deriving DecidableEq, Repr

/-- How a component is written. -/
def Component.text : Component → Text
  | root => ['/']
  | current => ['.']
  | parent => ['.', '.']
  | name t => t

/-- The step a piece between slashes stands for, inside a path. -/
def Component.ofPiece? (piece : Text) : Option Component :=
  if piece = [] ∨ piece = ['.'] then none
  else if piece = ['.', '.'] then some parent
  else some (name piece)

/-- The components of a path. -/
def components (p : Path) : List Component :=
  let pieces := splitWhen (· == '/') p
  let lead :=
    if p.head? = some '/' then [Component.root]
    else if pieces.head? = some ['.'] then [Component.current]
    else []
  lead ++ pieces.filterMap Component.ofPiece?

/-- Absolute paths start with a slash. -/
def isAbsolute (p : Path) : Bool := p.head? == some '/'

/-- The last component, when it is a name. -/
def fileName? (p : Path) : Option Text :=
  match p.components.getLast? with
  | some (.name t) => some t
  | _ => none

/-- The parts of a file name before and after its last dot; no cut for a name without a dot, or whose
only dot comes first. -/
def cutName (name : Text) : Text × Option Text :=
  match splitOnce (· == '.') name.reverse with
  | none => (name, none)
  | some (_, []) => (name, none)
  | some (after, before) => (before.reverse, some after.reverse)

/-- The file name without its extension. -/
def stem? (p : Path) : Option Text := p.fileName?.map fun n => (cutName n).1

/-- What follows the last dot of the file name. -/
def extension? (p : Path) : Option Text := p.fileName?.bind fun n => (cutName n).2

/-- The components of the directory that holds the path. -/
def parentComponents (p : Path) : List Component :=
  match p.components.getLast? with
  | some .root => []
  | _ => p.components.dropLast

/-- A path with these components. -/
def ofComponents : List Component → Path
  | .root :: rest => '/' :: joinWith ['/'] (rest.map Component.text)
  | comps => joinWith ['/'] (comps.map Component.text)

/-- `q` seen from the directory `p`. -/
def join (p q : Path) : Path :=
  if q.isAbsolute then q
  else if p = [] ∨ p.getLast? = some '/' then p ++ q
  else p ++ '/' :: q

end Path

end Bookbinder
