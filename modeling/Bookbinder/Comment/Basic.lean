import Bookbinder.Text.Basic

/-!
# Documentation comments

A `Comment` is what a `/** … */` block says: a description, the parameters, results and errors named
by its block tags, a link, and every other tag as written. A comment taken from a source also knows
where the block starts and ends.
-/

namespace Bookbinder

/-- A place in a source: lines count from 1, columns from 0 and in bytes of UTF-8. -/
structure Position where
  line : Nat
  column : Nat
deriving DecidableEq, Repr

/-- A documented parameter. -/
structure Param where
  name : Text
  type? : Option Text
  description : Text
deriving DecidableEq, Repr

/-- A documented result or error. -/
structure Note where
  type? : Option Text
  description : Text
deriving DecidableEq, Repr

/-- A block tag kept as written. -/
structure Tag where
  tag : Text
  value : Text
deriving DecidableEq, Repr

/-- The content of a documentation block. -/
structure Comment where
  start : Option Position := none
  stop : Option Position := none
  description : Text := []
  params : List Param := []
  returns : List Note := []
  throws : List Note := []
  link : Option Text := none
  tags : List Tag := []
deriving DecidableEq, Repr

namespace Comment

/-- The value of the first free tag of that name. -/
def tag? (c : Comment) (name : Text) : Option Text :=
  (c.tags.find? (·.tag == name)).map (·.value)

/-- The first word of the first `module` tag. -/
def moduleName? (c : Comment) : Option Text :=
  (c.tag? "module").bind fun value => (words value).head?

/-- Both ends of the block are known. -/
def isLocated (c : Comment) : Bool := c.start.isSome && c.stop.isSome

/-- The comment placed at a range of a source. -/
def locate (c : Comment) (start stop : Position) : Comment :=
  { c with start := some start, stop := some stop }

end Comment

end Bookbinder
