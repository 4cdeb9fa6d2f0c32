import Bookbinder.Comment.Parser
import Bookbinder.Script.Dialect

/-!
# Comments of a syntax tree

The comments of a script are read off the tree that a parser makes of it. A `Tree` has the kind of its
root, the range of bytes the root covers and the points where that range starts and stops;
`Tree.docComments` walks it in order and reads every comment node that is a documentation block.
`Script.extract` puts the two together for any parser.
-/

namespace Bookbinder

/-- A place in a source as parsers count it: rows and bytes in the row, both from 0. -/
structure Point where
  row : Nat
  column : Nat
deriving DecidableEq, Repr

/-- The position of a point. Lines count from 1. -/
def Point.position (p : Point) : Position := ⟨p.row + 1, p.column⟩

namespace Script

/-- A node of a syntax tree with all that is below it. -/
structure Tree where
  kind : String
  startByte : Nat
  stopByte : Nat
  start : Point
  stop : Point
  children : List Tree
deriving Repr

/-- The text between two byte offsets, if characters end at both. -/
def byteSlice? (t : Text) (start stop : Nat) : Option Text :=
  (takeBytes? t start).bind fun before => (takeBytes? t stop).bind (stripHead? before)

/-- The text of a node. A range that cuts a character has no text. -/
def Tree.text (source : Text) (n : Tree) : Text :=
  (byteSlice? source n.startByte n.stopByte).getD []

/-- The text is a documentation block, given that it is a comment. -/
def isDocBlock (t : Text) : Bool := startsWith "/**" t && t != "/**/".toList

/-- What a comment node documents, if it is a documentation block. -/
def Tree.docComment? (source : Text) (n : Tree) : Option Comment :=
  let text := n.text source
  if isDocBlock text then
    some ((Comment.parse text).locate n.start.position n.stop.position)
  else none

mutual
/-- The documentation blocks of a tree, in the order of a walk that does not look below comments. -/
def Tree.docComments (source : Text) : Tree → List Comment
  | ⟨kind, startByte, stopByte, start, stop, children⟩ =>
    if kind = "comment" then
      (Tree.docComment? source ⟨kind, startByte, stopByte, start, stop, children⟩).toList
    else docCommentsOf source children

/-- The documentation blocks of trees that stand side by side. -/
def docCommentsOf (source : Text) : List Tree → List Comment
  | [] => []
  | n :: ns => n.docComments source ++ docCommentsOf source ns
end

/-- Why a script has no comments to show. -/
inductive Fault where
  /-- The parser gave up. -/
  | noTree
deriving DecidableEq, Repr

/-- The wording of a fault. -/
def Fault.message : Fault → Text
  | noTree => "Parser error: Failed to parse source"

/-- The documentation blocks of a script, read off the tree of a parser. -/
def extract (parse : Grammar → Text → Option Tree) (d : Dialect) (t : Text) :
    Except Fault (List Comment) :=
  match parse d.grammar t with
  | some root => .ok (root.docComments t)
  | none => .error .noTree

end Script

end Bookbinder
