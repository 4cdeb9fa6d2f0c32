import Bookbinder.Book.Layout
import Bookbinder.Yaml.Basic

/-!
# The project file

The file that tells the book tool how to build the book: title, author, chapters and theme.
-/

namespace Bookbinder

/-- What a book is called and how it looks. -/
structure BookSettings where
  directory : Path
  title : Text
  author : Option Text := none
  description : Option Text := none
  theme : Text
deriving DecidableEq, Repr

namespace Chapter

def toYaml : Chapter → Yaml
  | page path => .text path
  | part path pages => .record [("part", .text path), ("chapters", .list (pages.map .text))]

end Chapter

/-- The text of the project file. -/
def projectText (b : BookSettings) (chapters : List Chapter) : Text :=
  Yaml.document
    [("project", .record [("type", .text "book"), ("output-dir", .text "_book")]),
     ("book", .record (("title".toList, .text b.title) ::
       (b.author.toList.map fun a => ("author".toList, .text a)) ++
       [("chapters".toList, .list (chapters.map Chapter.toYaml))])),
     ("format", .record [("html", .record [("theme", .text b.theme), ("toc", .flag true)])])]

end Bookbinder
