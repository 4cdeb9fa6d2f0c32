import Bookbinder.Comment.Basic

/-!
# Printing documentation blocks

`Comment.print` writes a comment as a block: the description first, then parameters, results, errors,
the link and the free tags, one a line behind a gutter of asterisks. Where the comment stands in a source
is not written.
-/

namespace Bookbinder

/-- A type in braces with a space behind it. -/
def typeText : Option Text → Text
  | some t => '{' :: t ++ ['}', ' ']
  | none => []

/-- The line of a parameter. -/
def Param.line (p : Param) : Text :=
  "@param ".toList ++ typeText p.type? ++ p.name ++ " - ".toList ++ p.description

/-- The line of a result or error under a tag. -/
def Note.line (tag : Text) (n : Note) : Text :=
  '@' :: tag ++ ' ' :: typeText n.type? ++ "- ".toList ++ n.description

/-- The line of a free tag. -/
def Tag.line (t : Tag) : Text := '@' :: t.tag ++ ' ' :: t.value

namespace Comment

/-- The lines of a comment. -/
def rows (c : Comment) : List Text :=
  lines c.description ++ c.params.map Param.line ++ c.returns.map (Note.line "returns") ++
    c.throws.map (Note.line "throws") ++ c.link.toList.map ("@link ".toList ++ ·) ++
    c.tags.map Tag.line

/-- The block of a comment. -/
def print (c : Comment) : Text :=
  "/**\n".toList ++ c.rows.flatMap (fun row => " * ".toList ++ row ++ ['\n']) ++ " */".toList

end Comment

end Bookbinder
