import Bookbinder.Yaml.Scalar

/-!
# YAML documents

Records, lists and texts in block layout: two spaces per level, the items of a list level with the key
they belong to.
-/

namespace Bookbinder

/-- A YAML value. -/
inductive Yaml where
  | text (t : Text)
  | flag (b : Bool)
  | list (items : List Yaml)
  | record (fields : List (Text × Yaml))
deriving Repr

namespace Yaml

/-- The indentation of a line. -/
def margin (indent : Nat) : Text := List.replicate indent ' '

mutual

/-- A value behind a key or a dash at `indent`, with the line break that ends it. -/
def inline (indent : Nat) : Yaml → Text
  | text t => ' ' :: scalar (indent + 2) t
  | flag true => " true\n"
  | flag false => " false\n"
  | list [] => " []\n"
  | list items => '\n' :: blockItems indent items
  | record [] => [' ', '{', '}', '\n']
  | record fields => '\n' :: blockFields (indent + 2) true fields

/-- The items of a list, each behind a dash. The fields of a record start right behind its dash. -/
def blockItems (indent : Nat) : List Yaml → Text
  | [] => []
  | record (f :: fs) :: items =>
    margin indent ++ '-' :: ' ' :: blockFields (indent + 2) false (f :: fs) ++ blockItems indent items
  | item :: items => margin indent ++ '-' :: inline indent item ++ blockItems indent items

/-- The fields of a record; the first line has its margin already when `startLine` is false. -/
def blockFields (indent : Nat) (startLine : Bool) : List (Text × Yaml) → Text
  | [] => []
  | (key, value) :: fields =>
    (if startLine then margin indent else []) ++ key ++ ':' :: inline indent value ++
      blockFields indent true fields

end

/-- A document that holds one record. -/
def document (fields : List (Text × Yaml)) : Text := blockFields 0 true fields

end Yaml

end Bookbinder
