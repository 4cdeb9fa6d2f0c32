import Bookbinder.Settings.Basic

/-!
# Commands

What the program can be asked to do: build the book of a project, inspect the comments of one source, or
tell its version.
-/

namespace Bookbinder

/-- How a book is built. -/
structure BuildOptions where
  path : Path
  output : Option Path := none
  /-- A settings file that has to be used. -/
  config : Option Path := none
  /-- Patterns that take the place of those set; none keep them. -/
  includes : List Text := []
  excludes : List Text := []
  window : Option Nat := none
  noArrowNames : Bool := false
  title : Option Text := none
  /-- Asks for progress messages, which are no part of the output. -/
  verbose : Bool := false
deriving DecidableEq, Repr

/-- How a source is inspected. -/
structure InspectOptions where
  file : Path
  window : Option Nat := none
  noArrowNames : Bool := false
  /-- The comments themselves are shown too. -/
  comments : Bool := false
deriving DecidableEq, Repr

/-- What the program is asked to do. -/
inductive Command where
  | build (o : BuildOptions)
  | inspect (o : InspectOptions)
  | version
deriving DecidableEq, Repr

/-- The settings that building overrides. -/
def BuildOptions.overrides (o : BuildOptions) : Overrides :=
  ⟨o.output, o.excludes, o.window, o.noArrowNames⟩

/-- The settings that inspecting overrides. -/
def InspectOptions.overrides (o : InspectOptions) : Overrides :=
  { window := o.window, noArrowNames := o.noArrowNames }

end Bookbinder
