import Bookbinder.Link.Basic
import Bookbinder.Path

/-!
# Modules

Every source file is one module. If one of its comments carries a `module` tag, the first such comment
speaks for the module: it gives the name, the description and possibly the category, and is no entry of
its own. What it leaves open is taken from the file's path.
-/

namespace Bookbinder

/-- What is known of a module as a whole. -/
structure ModuleInfo where
  name : Text
  description : Text
  /-- The path of the source, relative to the project. -/
  path : Path
  category : Text
  subcategory : Text
deriving DecidableEq, Repr

/-- A module and the comments of its source. -/
structure ModuleDoc where
  info : ModuleInfo
  entries : List Entry
deriving DecidableEq, Repr

/-- The comment speaks for its module. -/
def Comment.isModuleComment (c : Comment) : Bool := (c.tag? "module").isSome

namespace ModuleDoc

/-- The module of a source: its path, its comments in order, and the category of sources that lie in no
directory. -/
def ofEntries (path : Path) (entries : List Entry) (defaultCategory : Text) : ModuleDoc :=
  let speaker := (entries.find? (·.comment.isModuleComment)).map (·.comment)
  let tagged (name : String) : Option Text :=
    (speaker.bind (·.tag? name)).bind nonEmpty?
  let directories := path.parentComponents.map Path.Component.text
  { info := {
      name := (speaker.bind (·.moduleName?)).getD (path.stem?.getD "unknown")
      description := (speaker.map (·.description)).getD []
      path
      category := ((tagged "category").or directories[0]?).getD defaultCategory
      subcategory := ((tagged "subcategory").or directories[1]?).getD defaultCategory }
    entries := entries.eraseP (·.comment.isModuleComment) }

/-- The entries that document a construct. -/
def documented (m : ModuleDoc) : List Entry := m.entries.filter (·.link.isDocumented)

end ModuleDoc

/-- The counts an analysis reports. -/
structure Stats where
  files : Nat := 0
  comments : Nat := 0
  /-- Comments that document a construct. -/
  documented : Nat := 0
deriving DecidableEq, Repr

/-- Comments that document no construct. -/
def Stats.undocumented (s : Stats) : Nat := s.comments - s.documented

end Bookbinder
