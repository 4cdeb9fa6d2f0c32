import Bookbinder.Text.Basic

/-!
# JSON values

Objects keep their fields in order and may repeat a name, so that a reader can tell. Natural numbers are
kept as such; every other number keeps its literal, since nothing here computes with it.
-/

namespace Bookbinder

/-- A JSON value. -/
inductive Json where
  | null
  | bool (b : Bool)
  | nat (n : Nat)
  | number (literal : Text)
  | str (t : Text)
  /-- A string with an escaped surrogate that has no partner, and so no text. -/
  | loneSurrogate
  | arr (items : List Json)
  | obj (fields : List (Text × Json))
deriving Repr

namespace Json

/-- The value, or `null` for none. -/
def ofOption (f : α → Json) : Option α → Json
  | some a => f a
  | none => null

/-- The list of the values. -/
def ofList (f : α → Json) (l : List α) : Json := arr (l.map f)

/-- The first field of that name. -/
def field? (j : Json) (name : Text) : Option Json :=
  match j with
  | obj fields => fields.lookup name
  | _ => none

end Json

end Bookbinder
