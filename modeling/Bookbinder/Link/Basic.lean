import Bookbinder.Comment.Basic
import Bookbinder.Construct.Classifier
import Bookbinder.Link.Window

/-!
# Links

A `Link` tells what a comment documents: the construct found in the window after the comment, or why
there is none.
-/

namespace Bookbinder

/-- How comments are linked. -/
structure Linking where
  /-- Number of lines looked at after a comment. -/
  windowSize : Nat := 5
  /-- An arrow's parameter list stands in for the function's name. -/
  arrowNames : Bool := true
deriving DecidableEq, Repr

/-- What a comment documents. -/
inductive Link where
  /-- The comment's place is not known. -/
  | unlocated
  /-- The comment ends on the last line. -/
  | endOfFile
  | classified (construct : Construct) (window : Window)
deriving DecidableEq, Repr

namespace Link

/-- The kind as reports give it: `other` at the end of a file. -/
def kindText? : Link → Option Text
  | unlocated => none
  | endOfFile => some Kind.other.text
  | classified c _ => some c.kind.text

/-- The name as reports give it: `other` at the end of a file. -/
def nameText? : Link → Option Text
  | unlocated => none
  | endOfFile => some Kind.other.text
  | classified c _ => c.name?

/-- The documented construct, when there is a real one. -/
def construct? : Link → Option Construct
  | classified c _ => if c.kind = .other then none else some c
  | _ => none

/-- The kind of the documented construct. -/
def kind? (l : Link) : Option Kind := l.construct?.map (·.kind)

def window? : Link → Option Window
  | classified _ w => some w
  | _ => none

/-- The comment documents a construct. -/
def isDocumented (l : Link) : Bool := l.construct?.isSome

end Link

/-- What a comment of a source documents. -/
def Linking.link (g : Linking) (content : Text) (c : Comment) : Link :=
  match c.start, c.stop with
  | some start, some stop =>
    if start.line = 0 ∨ stop.line = 0 then .unlocated
    else match Window.after? content stop.line g.windowSize with
      | some w => .classified (classify g.arrowNames w.joined) w
      | none => .endOfFile
  | _, _ => .unlocated

/-- A comment together with what it documents. -/
structure Entry where
  comment : Comment
  link : Link
deriving DecidableEq, Repr

/-- The comments of a source, each with what it documents. -/
def Linking.linkAll (g : Linking) (content : Text) (cs : List Comment) : List Entry :=
  cs.map fun c => ⟨c, g.link content c⟩

end Bookbinder
