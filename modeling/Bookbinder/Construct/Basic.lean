import Bookbinder.Text.Basic

/-!
# Constructs

The declarations that a comment can document, and what is known of one: its kind and, where the text
shows it, its name.
-/

namespace Bookbinder

/-- The kinds of declarations. -/
inductive Kind where
  | function
  | classDecl
  | variableDecl
  | module
  | other
deriving DecidableEq, Repr

namespace Kind

/-- The kind in lower case, as reports give it. -/
def text : Kind → Text
  | function => "function"
  | classDecl => "class"
  | variableDecl => "variable"
  | module => "module"
  | other => "other"

/-- The kind as a heading starts with it. -/
def title : Kind → Text
  | function => "Function"
  | classDecl => "Class"
  | variableDecl => "Variable"
  | module => "Module"
  | other => "Other"

/-- All kinds. -/
def all : List Kind := [function, classDecl, variableDecl, module, other]

/-- The kind of that name. -/
def ofText? (t : Text) : Option Kind := all.find? (·.text == t)

end Kind

/-- Kind and name of a construct. -/
structure Construct where
  kind : Kind
  name? : Option Text
deriving DecidableEq, Repr

namespace Construct

/-- A construct of that kind; `other` never carries a name. -/
def of (kind : Kind) (name? : Option Text) : Construct :=
  ⟨kind, if kind = .other then none else name?⟩

/-- No known declaration. -/
def other : Construct := ⟨.other, none⟩

end Construct

end Bookbinder
