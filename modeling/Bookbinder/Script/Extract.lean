import Bookbinder.Script.Scanner
import Bookbinder.Script.Tree

/-!
# Comments of a script

`Script.parse` makes a tree of the lexemes of a script, one leaf each, in which the comments are those of
the grammar. It is the parser by which `Script.comments` reads the documentation blocks of a script in
source order, each with the positions where it starts and stops.
-/

namespace Bookbinder

/-- The point after a text that starts at `p`. Only a line feed starts a new row. -/
def Point.advance (p : Point) : Text → Point
  | [] => p
  | c :: cs => advance (if c = '\n' then ⟨p.row + 1, 0⟩ else ⟨p.row, p.column + c.utf8Size⟩) cs

/-- The point behind a text that a source begins with. -/
def Point.behind (before : Text) : Point := (Point.mk 0 0).advance before

/-- The kind of the node that a lexeme is. -/
def LexemeKind.nodeKind : LexemeKind → String
  | comment => "comment"
  | remark => "remark"
  | _ => "token"

namespace Script

/-- The leaves of lexemes of which the first starts at that offset and point. -/
def leavesFrom (startByte : Nat) (start : Point) : List Lexeme → List Tree
  | [] => []
  | l :: ls =>
    let stopByte := startByte + byteLength l.text
    let stop := start.advance l.text
    ⟨l.kind.nodeKind, startByte, stopByte, start, stop, []⟩ :: leavesFrom stopByte stop ls

/-- The tree of a script. -/
def parse (g : Grammar) (t : Text) : Tree :=
  ⟨"program", 0, byteLength t, ⟨0, 0⟩, .behind t, leavesFrom 0 ⟨0, 0⟩ (scan g t)⟩

/-- The documentation blocks of a script. -/
def comments (d : Dialect) (t : Text) : List Comment := (parse d.grammar t).docComments t

end Script

end Bookbinder
