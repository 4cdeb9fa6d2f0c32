import Bookbinder.Text.Alphanumeric
import Bookbinder.Text.Lowercase

/-!
# Slugs

A slug is a name fit for files and anchors: lower case, made of runs of letters and numerals with
single dashes between them. `slugify` makes the slug of any text. `SlugSet` hands out slugs that are
unique within one scope: the first claim of `util` gets `util`, the next ones `util-2`, `util-3`, …
-/

namespace Bookbinder

/-- The runs of letters and numerals of the text in lower case, joined by single dashes. -/
def slugify (t : Text) : Text :=
  joinWith ['-'] ((splitWhen (!isAlphanumeric ·) (lowercase t)).filter (!·.isEmpty))

/-- The names in use within one scope. -/
structure SlugSet where
  taken : List Text := []
deriving Repr

namespace SlugSet

/-- `base` with a number behind it. -/
def numbered (base : Text) (n : Nat) : Text := base ++ '-' :: decimal n

/-- The name is free in the scope. -/
def isFree (s : SlugSet) (name : Text) : Bool := !s.taken.contains name

/-- The first free name among `base-2`, `base-3`, …. One more candidate than there are names in use
is enough: the candidates differ from each other, so one of them is free. -/
def firstNumbered (s : SlugSet) (base : Text) : Text :=
  (((List.range' 2 (s.taken.length + 1)).map (numbered base)).find? s.isFree).getD base

/-- The name a claim of `base` gets. -/
def next (s : SlugSet) (base : Text) : Text :=
  if s.isFree base then base else s.firstNumbered base

/-- Hands out a name for `base` and takes it. -/
def claim (s : SlugSet) (base : Text) : Text × SlugSet :=
  let name := s.next base
  (name, ⟨name :: s.taken⟩)

/-- Hands out names for several bases in turn. -/
def claimAll (s : SlugSet) : List Text → List Text × SlugSet
  | [] => ([], s)
  | base :: bases =>
    let (name, s) := s.claim base
    let (names, s) := s.claimAll bases
    (name :: names, s)

end SlugSet

end Bookbinder
