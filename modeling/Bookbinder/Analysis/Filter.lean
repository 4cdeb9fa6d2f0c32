import Bookbinder.Failure

/-!
# Path filters

A filter accepts a path that matches some pattern to include and no pattern to exclude. A pattern that
starts with `**/` also stands for what follows, so `**/*.js` includes the sources at the top.
-/

namespace Bookbinder

/-- Which paths, relative to a project, are documented. -/
structure Filter where
  includes : List Glob
  excludes : List Glob
deriving DecidableEq, Repr

namespace Filter

/-- The globs a pattern stands for. -/
def globs (pattern : Text) : Except Glob.Fault (List Glob) := do
  let whole ← Glob.parse pattern
  match stripHead? "**/" pattern with
  | none => return [whole]
  | some rest => return [whole, ← Glob.parse rest]

/-- The globs that patterns stand for, or the first fault of a pattern. -/
def allGlobs (patterns : List Text) : Except Glob.Fault (List Glob) := do
  return (← patterns.mapM globs).flatten

/-- The filter of settings; patterns to include are read first. -/
def ofSettings (s : SourceSettings) : Except Glob.Fault Filter := do
  return ⟨← allGlobs s.includes, ← allGlobs s.excludes⟩

/-- The filter accepts a path. -/
def accepts (f : Filter) (p : Text) : Bool :=
  f.includes.any (·.isMatch p) && !f.excludes.any (·.isMatch p)

end Filter

end Bookbinder
