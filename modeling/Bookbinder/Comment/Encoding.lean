import Bookbinder.Comment.Basic
import Bookbinder.Json.Basic

/-!
# Comments as JSON

`Comment.toJson` writes a comment as an object and `Comment.ofJson?` reads one back. A record is read
from an object or from an array of its fields in order. In an object unknown fields are passed over, a
known field must not be repeated, and only fields that may be `null` may be missing. An array has
exactly one item per field.
-/

namespace Bookbinder

namespace Json

/-! ## Records -/

/-- The values of the named fields of a record, `null` standing for a missing one. A missing field that
may not be `null` is then refused by its own reader. -/
def record? (names : List String) : Json → Option (List Json)
  | arr items => if items.length = names.length then some items else none
  | obj fields =>
    names.mapM fun name =>
      match fields.filter (·.1 == name.toList) with
      | [] => some null
      | [field] => some field.2
      | _ => none
  | _ => none

/-- Reads a text. -/
def toText? : Json → Option Text
  | str t => some t
  | _ => none

/-- Reads a natural number below 2^64. -/
def toNat? : Json → Option Nat
  | nat n => if n < Nat.pow 2 64 then some n else none
  | _ => none

/-- Reads a value that may be absent. -/
def toOption? (read : Json → Option α) : Json → Option (Option α)
  | null => some none
  | j => (read j).map some

/-- Reads a list. -/
def toList? (read : Json → Option α) : Json → Option (List α)
  | arr items => items.mapM read
  | _ => none

end Json

open Json

namespace Position

def toJson (p : Position) : Json := .obj [("line", .nat p.line), ("column", .nat p.column)]

def ofJson? (j : Json) : Option Position := do
  let [line, column] ← record? ["line", "column"] j | none
  return ⟨← toNat? line, ← toNat? column⟩

end Position

namespace Param

def toJson (p : Param) : Json :=
  .obj [("name", .str p.name), ("type", ofOption .str p.type?), ("description", .str p.description)]

def ofJson? (j : Json) : Option Param := do
  let [name, type, description] ← record? ["name", "type", "description"] j | none
  return ⟨← toText? name, ← toOption? toText? type, ← toText? description⟩

end Param

namespace Note

def toJson (n : Note) : Json :=
  .obj [("type", ofOption .str n.type?), ("description", .str n.description)]

def ofJson? (j : Json) : Option Note := do
  let [type, description] ← record? ["type", "description"] j | none
  return ⟨← toOption? toText? type, ← toText? description⟩

end Note

namespace Tag

def toJson (t : Tag) : Json := .obj [("tag", .str t.tag), ("value", .str t.value)]

def ofJson? (j : Json) : Option Tag := do
  let [tag, value] ← record? ["tag", "value"] j | none
  return ⟨← toText? tag, ← toText? value⟩

end Tag

namespace Comment

def toJson (c : Comment) : Json :=
  .obj
    [("startLocation", ofOption Position.toJson c.start),
     ("endLocation", ofOption Position.toJson c.stop),
     ("description", .str c.description),
     ("params", Json.ofList Param.toJson c.params),
     ("returns", Json.ofList Note.toJson c.returns),
     ("thrownErrors", Json.ofList Note.toJson c.throws),
     ("link", ofOption .str c.link),
     ("tags", Json.ofList Tag.toJson c.tags)]

def ofJson? (j : Json) : Option Comment := do
  let [start, stop, description, params, returns, throws, link, tags] ←
    record? ["startLocation", "endLocation", "description", "params", "returns", "thrownErrors",
      "link", "tags"] j | none
  return {
    start := ← toOption? Position.ofJson? start
    stop := ← toOption? Position.ofJson? stop
    description := ← toText? description
    params := ← toList? Param.ofJson? params
    returns := ← toList? Note.ofJson? returns
    throws := ← toList? Note.ofJson? throws
    link := ← toOption? toText? link
    tags := ← toList? Tag.ofJson? tags }

end Comment

end Bookbinder
