import Bookbinder.Text.Basic

/-!
# TOML values

A TOML document is a table. How a table came to be decides whether it may be opened again
(`TableOrigin`): a table that a header only passed through may get its own header later, one written with
dotted keys may be extended by dotted keys, and an inline table is closed for good.
-/

namespace Bookbinder

/-- How a table came to be. -/
inductive TableOrigin where
  /-- It has a header of its own. -/
  | header
  /-- A longer header passed through it. -/
  | passed
  /-- A dotted key passed through it. -/
  | dotted
deriving DecidableEq, Repr

/-- A TOML value. Numbers with a fraction and dates keep nothing, as no setting uses them. -/
inductive Toml where
  | text (t : Text)
  | integer (n : Int)
  | boolean (b : Bool)
  | float
  | dateTime
  | array (items : List Toml)
  /-- A table that is a value and so complete. -/
  | inlineTable (fields : List (Text × Toml))
  | table (origin : TableOrigin) (fields : List (Text × Toml))
  /-- Tables that share a header in double brackets. -/
  | tables (items : List (List (Text × Toml)))
deriving Repr

namespace Toml

/-- The fields of a table. -/
abbrev Fields := List (Text × Toml)

/-- The fields with the value of `key` set. -/
def setField (fields : Fields) (key : Text) (value : Toml) : Fields :=
  if fields.any (·.1 == key) then fields.map fun f => if f.1 == key then (key, value) else f
  else fields ++ [(key, value)]

/-- Changes the fields of the table a header path leads to. Tables that are not there yet are made on the
way, and among tables that share a header the last one is meant. -/
def changeAt (change : Fields → Option Fields) : List Text → Fields → Option Fields
  | [], fields => change fields
  | key :: path, fields =>
    match fields.lookup key with
    | none => (changeAt change path []).map fun inner => setField fields key (table .passed inner)
    | some (table origin inner) =>
      (changeAt change path inner).map fun inner => setField fields key (table origin inner)
    | some (tables items) =>
      match items.getLast? with
      | none => none
      | some inner =>
        (changeAt change path inner).map fun inner =>
          setField fields key (tables (items.dropLast ++ [inner]))
    | some _ => none

/-- Opens the table of a header. -/
def openTable (path : List Text) (key : Text) : Fields → Option Fields :=
  changeAt (fun fields =>
    match fields.lookup key with
    | none => some (setField fields key (table .header []))
    | some (table .passed inner) => some (setField fields key (table .header inner))
    | some _ => none) path

/-- Opens one more table of a header in double brackets. -/
def openTables (path : List Text) (key : Text) : Fields → Option Fields :=
  changeAt (fun fields =>
    match fields.lookup key with
    | none => some (setField fields key (tables [[]]))
    | some (tables items) => some (setField fields key (tables (items ++ [[]])))
    | some _ => none) path

/-- Sets the value of a dotted key, whose parts before the last lead through tables written with dotted
keys only. -/
def setDotted (value : Toml) : List Text → Fields → Option Fields
  | [], _ => none
  | [key], fields =>
    if fields.any (·.1 == key) then none else some (setField fields key value)
  | key :: path, fields =>
    match fields.lookup key with
    | none => (setDotted value path []).map fun inner => setField fields key (table .dotted inner)
    | some (table .dotted inner) =>
      (setDotted value path inner).map fun inner => setField fields key (table .dotted inner)
    | some (table .passed inner) =>
      -- A table that only headers passed through may be passed once more, but holds no dotted key.
      if path.length = 1 then none
      else (setDotted value path inner).map fun inner => setField fields key (table .passed inner)
    | some (tables items) =>
      match items.getLast? with
      | none => none
      | some inner =>
        if path.length = 1 then none
        else (setDotted value path inner).map fun inner =>
          setField fields key (tables (items.dropLast ++ [inner]))
    | some _ => none

end Toml

end Bookbinder
