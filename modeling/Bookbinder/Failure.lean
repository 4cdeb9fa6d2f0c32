import Bookbinder.Disk.Basic
import Bookbinder.Glob
import Bookbinder.Settings.Basic

/-!
# Failures

Why a run ends early, or why a source is left out of a book.
-/

namespace Bookbinder

/-- Why something could not be done. -/
inductive Failure where
  | disk (e : DiskError)
  | unreadable (p : Path) (e : DiskError)
  /-- The text of a settings file is not understood. -/
  | settingsText
  | settings (f : SettingsFault)
  | notFound (p : Path)
  /-- A file of no known dialect. -/
  | unsupported (p : Path)
  | glob (f : Glob.Fault)
  /-- No sources below a directory. -/
  | noSources (root : Path)
deriving DecidableEq, Repr

/-- The wording of a failure. -/
def Failure.message : Failure → Text
  | disk e => "IO error: ".toList ++ e.message
  | unreadable p e => "Failed to read ".toList ++ p ++ ": ".toList ++ e.message
  | settingsText => "Failed to parse config file"
  | settings f => "Config validation error: ".toList ++ f.message
  | notFound p => "Path not found: ".toList ++ p
  | unsupported p => "Parse error in ".toList ++ p ++ ": unsupported file extension".toList
  | glob f => "Glob pattern error: ".toList ++ f.message
  | noSources root => "Analysis error: No source files found in ".toList ++ root

end Bookbinder
