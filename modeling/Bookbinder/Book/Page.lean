import Bookbinder.Module.Category
import Bookbinder.Slug

/-!
# Pages

The pages of a book: one per module, one per category and sub-category, and the home page. Each is a
Markdown text; the first two kinds open with a title in double quotes, where `escapeTitle` keeps the
title from closing its quotes.
-/

namespace Bookbinder

namespace Page

/-- A title inside double quotes: a backslash in front of each backslash and quotation mark. -/
def escapeTitle (t : Text) : Text :=
  t.flatMap fun c => if c = '\\' then ['\\', '\\'] else if c = '"' then ['\\', '"'] else [c]

/-- The lines that give a page its title, and a blank line. -/
def frontMatter (title : Text) : Text :=
  "---\ntitle: \"".toList ++ escapeTitle title ++ "\"\n---\n\n".toList

/-- A count with its noun; the plural ends in `s`. -/
def counted (n : Nat) (noun : String) : Text :=
  decimal n ++ ' ' :: noun.toList ++ if n = 1 then [] else ['s']

/-- A text of at most `count` words as it is, and the first words of a longer one. -/
def truncateWords (count : Nat) (t : Text) : Text :=
  let ws := words t
  if ws.length ≤ count then t else joinWith [' '] (ws.take count) ++ "...".toList

/-- The text, or nothing when it would say nothing. -/
def omitIf (absent : Bool) (t : Text) : Text := if absent then [] else t

/-! ## Module pages -/

/-- The name in the heading of a construct without one. -/
def anonymous : Text := "anonymous"

/-- The slug that names the anchor of a construct, before it is made unique on its page. -/
def anchorBase (c : Construct) : Text := slugify (c.kind.text ++ '-' :: c.name?.getD anonymous)

/-- A documented construct on a page. -/
structure Item where
  construct : Construct
  comment : Comment
  anchor : Text
deriving DecidableEq, Repr

/-- The documented constructs among entries, with anchors unique on the page. -/
def items (anchors : SlugSet) : List Entry → List Item
  | [] => []
  | e :: es =>
    match e.link.construct? with
    | none => items anchors es
    | some c =>
      let (anchor, anchors) := anchors.claim (anchorBase c)
      ⟨c, e.comment, anchor⟩ :: items anchors es

/-- The heading of an item, with its anchor. -/
def Item.heading (i : Item) : Text :=
  i.construct.kind.title ++ ' ' :: i.construct.name?.getD anonymous ++ " \x7b#".toList ++ i.anchor ++
    "\x7d".toList

/-- The line of a parameter. -/
def paramLine (p : Param) : Text :=
  "- **".toList ++ p.name ++ "**".toList ++
    (match p.type?.bind nonEmpty? with
      | some t => " `".toList ++ t ++ "`".toList
      | none => []) ++
    ": ".toList ++ p.description ++ ['\n']

/-- The line of a result or an error; `fallback` stands in for a missing type. -/
def noteLine (fallback : Text) (n : Note) : Text :=
  "- **".toList ++ n.type?.getD fallback ++ "**: ".toList ++ n.description ++ ['\n']

/-- A headed list of lines with a blank line after it. -/
def listed (title : String) (lines : List Text) : Text :=
  omitIf lines.isEmpty ("### ".toList ++ title.toList ++ "\n\n".toList ++ lines.flatten ++ ['\n'])

/-- A headed paragraph with a blank line after it. -/
def paragraph (title : String) (body : Text) : Text :=
  omitIf body.isEmpty (title.toList ++ "\n\n".toList ++ body ++ "\n\n".toList)

/-- The part of a module page about one construct. -/
def Item.body (i : Item) : Text :=
  "\n\n## ".toList ++ i.heading ++ "\n\n".toList ++
    paragraph "### Description" i.comment.description ++
    listed "Params" (i.comment.params.map paramLine) ++
    listed "Returns" (i.comment.returns.map (noteLine "value")) ++
    listed "Thrown Errors" (i.comment.throws.map (noteLine "Error")) ++
    match i.comment.link.bind nonEmpty? with
    | some link => "### Link\n\n<".toList ++ link ++ ">\n".toList
    | none => []

/-- The page of a module. -/
def ofModule (m : ModuleDoc) : Text :=
  frontMatter m.info.name ++ paragraph "## Description" m.info.description ++
    "_Source: `".toList ++ m.info.path ++ "`_\n".toList ++
    (items {} m.entries).flatMap Item.body ++ ['\n']

/-! ## Index pages and the home page -/

/-- A link to a page from an index page. -/
structure PageLink where
  name : Text
  href : Text
  description : Text := []
deriving DecidableEq, Repr

/-- The line of a linked module. -/
def moduleLine (l : PageLink) : Text :=
  "- [".toList ++ l.name ++ "](".toList ++ l.href ++ ")".toList ++
    omitIf l.description.isEmpty (": ".toList ++ truncateWords 20 l.description) ++ ['\n']

/-- The line of a linked section. -/
def sectionLine (l : PageLink) : Text :=
  "- [".toList ++ l.name ++ "](".toList ++ l.href ++ ")\n".toList

/-- An index page. It lists its modules, or its sections if there are no modules. -/
def ofSection (title : Text) (modules sections : List PageLink) : Text :=
  frontMatter title ++
    (if modules.isEmpty then
      counted sections.length "section" ++ " in this part:\n\n".toList ++
        sections.flatMap sectionLine
    else
      counted modules.length "module" ++ " in this section:\n\n".toList ++
        modules.flatMap moduleLine) ++ ['\n']

/-- The home page of a book. -/
def ofHome (name : Text) (description : Option Text) (stats : Stats) : Text :=
  "# ".toList ++ name ++ "\n\n".toList ++
    (match description.bind nonEmpty? with
      | some d => d ++ "\n\n".toList
      | none => []) ++
    "This book was generated from the documentation comments in the project's source files.\n\n".toList ++
    counted stats.files "file" ++ ", ".toList ++ counted stats.documented "documented construct" ++
    ".\n".toList

end Page

end Bookbinder
