import Bookbinder.Path
import Bookbinder.Text.Lowercase

/-!
# Script dialects

The dialect of a source follows from the file extension alone, whatever the extension's case. It decides
by which `Grammar` the source is parsed: whether its text may hold markup elements and whether it may
hold type declarations.
-/

namespace Bookbinder

/-- The grammars that sources are parsed by. -/
inductive Grammar where
  | javaScript
  | typeScript
  | tsx
deriving DecidableEq, Repr

namespace Grammar

/-- Markup elements may stand where an expression may. -/
def hasMarkup : Grammar → Bool
  | typeScript => false
  | _ => true

/-- Type declarations such as interfaces are part of the language. -/
def hasTypes : Grammar → Bool
  | javaScript => false
  | _ => true

end Grammar

/-- The dialects that are documented. -/
inductive Dialect where
  | javaScript
  | typeScript
  | jsx
  | tsx
deriving DecidableEq, Repr

namespace Dialect

/-- The extensions of each dialect, in lower case. -/
def extensions : List (String × Dialect) :=
  [("js", javaScript), ("mjs", javaScript), ("cjs", javaScript), ("jsx", jsx), ("ts", typeScript),
   ("mts", typeScript), ("cts", typeScript), ("tsx", tsx)]

/-- The dialect of a file extension. -/
def ofExtension? (ext : Text) : Option Dialect :=
  (extensions.find? (·.1.toList == lowercase ext)).map (·.2)

/-- The dialect of a file. -/
def ofPath? (p : Path) : Option Dialect := p.extension?.bind ofExtension?

/-- The grammar of a dialect. -/
def grammar : Dialect → Grammar
  | typeScript => .typeScript
  | tsx => .tsx
  | javaScript | jsx => .javaScript

end Dialect

end Bookbinder
