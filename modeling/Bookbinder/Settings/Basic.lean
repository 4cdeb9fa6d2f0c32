import Bookbinder.Link.Basic
import Bookbinder.Path

/-!
# Settings

What a project can set, the values it gets if it sets nothing, which values are allowed, and how the
command line overrides them.
-/

namespace Bookbinder

/-- What a project calls itself. -/
structure ProjectSettings where
  name : Text := "Untitled Project"
  author : Option Text := none
  description : Option Text := none
deriving DecidableEq, Repr

/-- Which sources are documented. -/
structure SourceSettings where
  excludes : List Text :=
    ["node_modules/**", "dist/**", "build/**", "coverage/**", "**/*.min.js", "**/*.d.ts", ".git/**"]
  includes : List Text := ["**/*.js", "**/*.mjs", "**/*.cjs", "**/*.ts"]
  /-- The category of sources that lie in no directory. -/
  defaultCategory : Text := "general"
deriving DecidableEq, Repr

/-- Where the book goes and how it looks. -/
structure OutputSettings where
  directory : Path := "./docs"
  theme : Text := "cosmo"
deriving DecidableEq, Repr

/-- All settings. -/
structure Settings where
  project : ProjectSettings := {}
  sources : SourceSettings := {}
  linking : Linking := {}
  output : OutputSettings := {}
deriving DecidableEq, Repr

/-- Why settings are not allowed. -/
inductive SettingsFault where
  | windowEmpty
  | windowTooLarge
  | nothingIncluded
  | categoryBlank
deriving DecidableEq, Repr

/-- The wording of a fault. -/
def SettingsFault.message : SettingsFault → Text
  | windowEmpty => "window_size must be at least 1"
  | windowTooLarge => "window_size cannot exceed 50"
  | nothingIncluded => "at least one include pattern required"
  | categoryBlank => "default_category cannot be empty"

/-- Settings given on the command line. -/
structure Overrides where
  output : Option Path := none
  excludes : List Text := []
  window : Option Nat := none
  noArrowNames : Bool := false
deriving DecidableEq, Repr

namespace Settings

/-- The largest window. -/
def maxWindow : Nat := 50

/-- The first fault of the settings. -/
def fault? (s : Settings) : Option SettingsFault :=
  if s.linking.windowSize = 0 then some .windowEmpty
  else if maxWindow < s.linking.windowSize then some .windowTooLarge
  else if s.sources.includes.isEmpty then some .nothingIncluded
  else if (trim s.sources.defaultCategory).isEmpty then some .categoryBlank
  else none

/-- The settings with what the command line gives; patterns to exclude are added to those set. -/
def merge (s : Settings) (o : Overrides) : Settings :=
  { s with
    sources := { s.sources with excludes := s.sources.excludes ++ o.excludes }
    linking := {
      windowSize := o.window.getD s.linking.windowSize
      arrowNames := s.linking.arrowNames && !o.noArrowNames }
    output := { s.output with directory := o.output.getD s.output.directory } }

end Settings

end Bookbinder
