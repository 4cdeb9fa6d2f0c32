import Bookbinder.Failure
import Bookbinder.Settings.Reader

/-!
# Settings files

Settings kept in a file. A file that was asked for has to be there, to be understood and to be without
fault; a file that is merely looked for is ignored if it is not.
-/

namespace Bookbinder

namespace Settings

/-- The settings a text describes. -/
def ofText (t : Text) : Except Failure Settings :=
  match parse? t with
  | none => .error .settingsText
  | some s =>
    match s.fault? with
    | some f => .error (.settings f)
    | none => .ok s

/-- The settings in a file. -/
def load (d : Disk) (p : Path) : Except Failure Settings :=
  match d.readText p with
  | .error e => .error (.disk e)
  | .ok t => ofText t

/-- The settings in a file if it can be used. -/
def loadOrDefault (d : Disk) (p : Path) : Settings := (load d p).toOption.getD {}

theorem loadOrDefault_of_unreadable {d : Disk} {p : Path} {e : DiskError}
    (h : d.readText p = .error e) : loadOrDefault d p = {} := by
  rw [loadOrDefault, load, h]
  rfl

end Settings

end Bookbinder
