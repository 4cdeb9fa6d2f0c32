import Bookbinder.Pattern

/-!
# The forms of declarations

How functions, exports, module tags, variables and classes look in a stretch of source text. Each
pattern captures the part that names the construct.
-/

namespace Bookbinder.Forms

open Pattern

/-- Blanks, possibly none. -/
def gap : Pattern := many .blank .greedy

/-- At least one blank. -/
def space : Pattern := some1 .blank

/-- A run of word characters. -/
def word : Pattern := some1 .word

/-- A parenthesised list that ends at the last closing parenthesis of its line. -/
def lineList : Pattern := "(" ++ many .inLine .greedy ++ ")"

/-- The inside of a list, up to the nearest closing parenthesis that fits. -/
def inside : Pattern := many .any .reluctant

/-- A parenthesised list that ends as early as it can. -/
def shortList : Pattern := "(" ++ inside ++ ")"

/-- An assignment sign. -/
def assign : Pattern := gap ++ "=" ++ gap

/-- The arrow after a parameter list. -/
def arrow : Pattern := gap ++ "=>"

/-! ## Functions -/

/-- The word `function`, perhaps after `async`. -/
def functionKeyword : Pattern :=
  optional (boundary ++ "async" ++ space) ++ boundary ++ "function" ++ boundary

/-- Text that declares or assigns a function. -/
def functionForms : List Pattern :=
  [functionKeyword,
   start ++ "exports." ++ word ++ assign ++ "async" ++ gap ++ lineList ++ arrow,
   boundary ++ "const" ++ boundary ++ gap ++ word ++ assign ++ "async" ++ gap ++ lineList ++ arrow,
   boundary ++ word ++ assign ++ "function" ++ gap ++ "(",
   boundary ++ word ++ assign ++ shortList ++ arrow,
   boundary ++ word ++ assign ++ "async" ++ gap ++ shortList ++ arrow,
   boundary ++ word ++ assign ++ "function" ++ gap ++ inside ++ "("]

/-- Text that declares or assigns a function, capturing its name or else its parameter list. -/
def functionNameForms : List Pattern :=
  [optional ("async" ++ space) ++ "function" ++ space ++ capture word,
   "const" ++ space ++ capture word ++ assign ++ "async" ++ gap ++ lineList ++ arrow,
   "(" ++ capture inside ++ ")" ++ arrow,
   capture word ++ assign ++ "function" ++ gap ++ shortList,
   capture word ++ assign ++ shortList ++ arrow,
   word ++ assign ++ "async" ++ gap ++ "(" ++ capture inside ++ ")" ++ arrow,
   word ++ assign ++ "function" ++ gap ++ inside ++ "(" ++ capture inside ++ ")",
   word ++ assign ++ "(" ++ capture inside ++ ")" ++ arrow]

/-- Assignments of functions to `exports`. In the arrow forms any character but a line feed may stand
between `exports` and the name. -/
def exportForms : List Pattern :=
  [start ++ "exports." ++ capture word ++ assign ++ "function" ++ gap ++ lineList,
   "exports" ++ one .inLine ++ capture word ++ assign ++ shortList ++ arrow,
   "exports" ++ one .inLine ++ capture word ++ assign ++ "async" ++ gap ++ shortList ++ arrow]

def functionPattern : Pattern := anyOf functionForms

def functionName : Pattern := anyOf functionNameForms

def exportName : Pattern := anyOf exportForms

/-- The parameter list of an arrow. -/
def arrowParams : Pattern := "(" ++ capture inside ++ ")" ++ arrow

/-! ## Modules, variables and classes -/

/-- A module tag and the rest of its line. -/
def moduleTag : Pattern := "@module" ++ space ++ capture (many .inLine .greedy)

/-- A variable declaration. -/
def variableDecl : Pattern :=
  boundary ++ anyOf ["const", "let", "var"] ++ space ++ capture word

/-- A class declaration. -/
def classDecl : Pattern := boundary ++ "class" ++ space ++ capture word

end Bookbinder.Forms
