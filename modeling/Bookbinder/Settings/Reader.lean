import Bookbinder.Settings.Basic
import Bookbinder.Toml.Parser

/-!
# Reading settings

Settings are read from a TOML document with a table per section. Sections and settings that are missing
keep their defaults, unknown ones are passed over, and a value of the wrong type is refused. A section
may also be an array of its settings in order.
-/

namespace Bookbinder

namespace Toml

/-- The settings of a section: by name from a table, by place from an array. -/
inductive Section where
  | named (fields : Fields)
  | placed (items : List Toml)

/-- A value as a section. A date has no settings. -/
def section? : Toml → Option Section
  | table _ fields | inlineTable fields => some (.named fields)
  | array items => some (.placed items)
  | tables items => some (.placed (items.map (table .header)))
  | dateTime => some (.named [])
  | _ => none

/-- The value of a setting by its name and place. -/
def Section.get? (s : Section) (name : String) (place : Nat) : Option Toml :=
  match s with
  | .named fields => fields.lookup name.toList
  | .placed items => items[place]?

/-- Reads a setting, which has a default. -/
def Section.read? (s : Section) (name : String) (place : Nat) (read : Toml → Option α) (default : α) :
    Option α :=
  match s.get? name place with
  | none => some default
  | some v => read v

def toText? : Toml → Option Text
  | text t => some t
  | _ => none

def toBool? : Toml → Option Bool
  | boolean b => some b
  | _ => none

def toNat? : Toml → Option Nat
  | integer n => if 0 ≤ n then some n.toNat else none
  | _ => none

def toTexts? : Toml → Option (List Text)
  | array items => items.mapM toText?
  | tables [] => some []
  | _ => none

end Toml

namespace Settings

open Toml

def project? (v : Toml) : Option ProjectSettings := do
  let s ← section? v
  let d : ProjectSettings := {}
  return {
    name := ← s.read? "name" 0 toText? d.name
    author := ← s.read? "author" 1 (fun v => (toText? v).map some) d.author
    description := ← s.read? "description" 2 (fun v => (toText? v).map some) d.description }

def sources? (v : Toml) : Option SourceSettings := do
  let s ← section? v
  let d : SourceSettings := {}
  return {
    excludes := ← s.read? "exclude" 0 toTexts? d.excludes
    includes := ← s.read? "include" 1 toTexts? d.includes
    defaultCategory := ← s.read? "default_category" 2 toText? d.defaultCategory }

def linking? (v : Toml) : Option Linking := do
  let s ← section? v
  let d : Linking := {}
  return {
    windowSize := ← s.read? "window_size" 0 toNat? d.windowSize
    arrowNames := ← s.read? "arrow_params_as_name" 1 toBool? d.arrowNames }

def output? (v : Toml) : Option OutputSettings := do
  let s ← section? v
  let d : OutputSettings := {}
  return {
    directory := ← s.read? "directory" 0 toText? d.directory
    theme := ← s.read? "theme" 1 toText? d.theme }

/-- Reads settings from the text of a document. -/
def parse? (t : Text) : Option Settings := do
  let s := Section.named (← Toml.parse? t)
  let d : Settings := {}
  return {
    project := ← s.read? "project" 0 project? d.project
    sources := ← s.read? "analysis" 1 sources? d.sources
    linking := ← s.read? "linking" 2 linking? d.linking
    output := ← s.read? "output" 3 output? d.output }

end Settings

end Bookbinder
