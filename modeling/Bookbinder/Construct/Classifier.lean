import Bookbinder.Construct.Basic
import Bookbinder.Construct.Forms
import Bookbinder.Comment.Parser

/-!
# Classifying constructs

`classify` decides what a stretch of source text declares. There is one rule per kind; the rules are
tried in the order function, module, variable, class, and the first that applies decides both kind and
name.
-/

namespace Bookbinder

/-- How one kind of construct is recognised and named. -/
structure Rule where
  kind : Kind
  /-- The text looks like this kind. -/
  applies : Text → Bool
  /-- The declared name, for texts to which the rule applies. -/
  name? : Text → Option Text

/-- The construct, if the rule applies. -/
def Rule.construct? (r : Rule) (t : Text) : Option Construct :=
  if r.applies t then some (.of r.kind (r.name? t)) else none

/-- The name of an `exports` assignment. -/
def exportedName? (t : Text) : Option Text := (Forms.exportName.find? t).bind nonEmpty?

/-- The name of a function. An export gives its own name. Otherwise an arrow's parameter list stands in
for the name when `arrowNames` is set, even if an identifier is declared. -/
def functionName? (arrowNames : Bool) (t : Text) : Option Text :=
  match Forms.functionName.find? t with
  | none => none
  | some declared =>
    match exportedName? t with
    | some exported => some exported
    | none =>
      match if arrowNames then Forms.arrowParams.find? t else none with
      | some params => nonEmpty? params
      | none => nonEmpty? declared

/-- The name of a module: an export's name, or the first word of its tag. -/
def moduleTagName? (t : Text) : Option Text :=
  (exportedName? t).orElse fun _ => (Forms.moduleTag.find? t).bind fun value => (words value).head?

def functionRule (arrowNames : Bool) : Rule :=
  ⟨.function, Forms.functionPattern.occursIn, functionName? arrowNames⟩

def moduleRule : Rule := ⟨.module, Forms.moduleTag.occursIn, moduleTagName?⟩

def variableRule : Rule := ⟨.variableDecl, Forms.variableDecl.occursIn, Forms.variableDecl.find?⟩

def classRule : Rule := ⟨.classDecl, Forms.classDecl.occursIn, Forms.classDecl.find?⟩

/-- The rules in the order they are tried. -/
def rules (arrowNames : Bool) : List Rule :=
  [functionRule arrowNames, moduleRule, variableRule, classRule]

/-- Kind and name of the construct in a text. -/
def classify (arrowNames : Bool) (t : Text) : Construct :=
  ((rules arrowNames).findSome? (·.construct? t)).getD .other

/-- The rules one after the other. -/
theorem classify_eq (arrowNames : Bool) (t : Text) :
    classify arrowNames t =
      if Forms.functionPattern.occursIn t then ⟨.function, functionName? arrowNames t⟩
      else if Forms.moduleTag.occursIn t then ⟨.module, moduleTagName? t⟩
      else if Forms.variableDecl.occursIn t then ⟨.variableDecl, Forms.variableDecl.find? t⟩
      else if Forms.classDecl.occursIn t then ⟨.classDecl, Forms.classDecl.find? t⟩
      else .other := by
  simp only [classify, rules, List.findSome?_cons, List.findSome?_nil, Rule.construct?, functionRule,
    moduleRule, variableRule, classRule]
  cases Forms.functionPattern.occursIn t <;> cases Forms.moduleTag.occursIn t <;>
    cases Forms.variableDecl.occursIn t <;> cases Forms.classDecl.occursIn t <;> rfl

/-- The name comes from the rule that gave the kind. -/
theorem classify_name? (arrowNames : Bool) (t : Text) :
    (classify arrowNames t).name? =
      match (classify arrowNames t).kind with
      | .function => functionName? arrowNames t
      | .module => moduleTagName? t
      | .variableDecl => Forms.variableDecl.find? t
      | .classDecl => Forms.classDecl.find? t
      | .other => none := by
  rw [classify_eq]
  cases Forms.functionPattern.occursIn t <;> cases Forms.moduleTag.occursIn t <;>
    cases Forms.variableDecl.occursIn t <;> cases Forms.classDecl.occursIn t <;> rfl

/-- The kind alone. -/
def kindOf (arrowNames : Bool) (t : Text) : Kind :=
  (((rules arrowNames).find? (·.applies t)).map (·.kind)).getD .other

end Bookbinder
