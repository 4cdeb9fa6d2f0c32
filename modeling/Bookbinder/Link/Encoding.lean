import Bookbinder.Comment.Encoding
import Bookbinder.Link.Basic

/-!
# Constructs and links as JSON

A construct is an object of its kind and its name, the name left out when there is none. A link adds the
lines of its window; a comment without a construct has a fixed object of its own.
-/

namespace Bookbinder

open Json

namespace Kind

def toJson (k : Kind) : Json := .str k.text

/-- Reads a kind: its name, or an object with the name as its only field and `null` in it. -/
def ofJson? : Json → Option Kind
  | .str t => ofText? t
  | .obj [(t, .null)] => ofText? t
  | _ => none

end Kind

namespace Construct

/-- The fields of a construct. -/
def toFields (c : Construct) : List (Text × Json) :=
  ("type".toList, c.kind.toJson) :: c.name?.toList.map fun n => ("name".toList, .str n)

def toJson (c : Construct) : Json := .obj c.toFields

def ofJson? (j : Json) : Option Construct := do
  let [kind, name] ← record? ["type", "name"] j | none
  return ⟨← Kind.ofJson? kind, ← toOption? toText? name⟩

end Construct

namespace Link

def toJson : Link → Json
  | classified c w => .obj (c.toFields ++ [("nextLines".toList, Json.ofList .str w.nextLines)])
  | l => .obj [("type", ofOption .str l.kindText?), ("name", ofOption .str l.nameText?)]

end Link

namespace Entry

def toJson (e : Entry) : Json :=
  .obj [("comment", e.comment.toJson), ("construct", e.link.toJson)]

end Entry

end Bookbinder
