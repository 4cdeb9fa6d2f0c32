import Bookbinder.Command.Run

/-!
# The program

The outer layer: it copies the parts of the file system that a command line speaks of into a `Disk`, runs
the command line there, prints what the run printed and writes back what it changed.
-/

namespace Bookbinder

/-- A copy of parts of the file system. -/
structure Copy where
  disk : Disk
  /-- Directories whose contents have been copied. -/
  listed : List Location := []

/-- The file at a location. -/
def fileAt (loc : Location) := do
  let root ← IO.FS.realPath "/"
  return loc.foldl (fun p name => p / String.ofList name) root

/-- The names of an absolute path. -/
def namesOf (p : String) : Location := (splitWhen (· == '/') p.toList).filter (!·.isEmpty)

/-- A target for links that lead nowhere: no file has this name. -/
def nowhere : Path := ['/', '\x00']

/-- The result of an action, if it succeeds. -/
def attempt {α : Type} (action : IO α) : IO (Option α) := do
  match ← action.toBaseIO with
  | .ok a => return some a
  | .error _ => return none

mutual

/-- Copies a directory with all that lies below it. -/
partial def Copy.list (c : Copy) (here : Location) : IO Copy := do
  if c.listed.contains here then return c
  let mut c := { c with listed := here :: c.listed }
  for entry in (← attempt (← fileAt here).readDir).getD #[] do
    c ← c.reach (Disk.isEntered entry.fileName.toList) here [entry.fileName.toList]
  return c

/-- Copies what lies on the way of a path from the directory `here`, and what lies below its end if
`deep`. What is not there, or may not be looked at, is left out. -/
partial def Copy.reach (c : Copy) (deep : Bool) (here : Location) : List Text → IO Copy
  | [] => if deep then c.list here else return c
  | name :: rest => do
    if name = [] ∨ name = ['.'] then return ← c.reach deep here rest
    if name = ['.', '.'] then return ← c.reach deep here.dropLast rest
    let loc := here ++ [name]
    let file ← fileAt loc
    let type : Option IO.FS.FileType := (← attempt file.symlinkMetadata).map (·.type)
    match type with
    | some .dir => Copy.reach { c with disk := c.disk.put loc .directory } deep loc rest
    | some .file =>
      match ← attempt (IO.FS.readBinFile file) with
      | some bytes => return { c with disk := c.disk.put loc (.file bytes) }
      | none => return c
    | some .symlink =>
      match ← attempt (IO.FS.realPath file) with
      | none => return { c with disk := c.disk.put loc (.link nowhere) }
      | some target =>
        let c := { c with disk := c.disk.put loc (.link target.toString.toList) }
        c.reach deep [] (namesOf target.toString ++ rest)
    | _ => return c

end

/-- Copies what a path leads to. -/
def Copy.path (c : Copy) (p : Path) : IO Copy :=
  c.reach true (if p.isAbsolute then [] else c.disk.workDir) (splitWhen (· == '/') p)

/-- The copy a command line needs: the settings first, since they tell where the book goes. -/
def copyFor (args : List Text) : IO Copy := do
  let workDir := namesOf (← IO.FS.realPath (← IO.currentDir)).toString
  let c ← Copy.reach { disk := { workDir } } false [] workDir
  let c ← c.path settingsFile
  match Command.parse args with
  | .ok (.build o) =>
    let c ← match o.config with
      | some p => c.path p
      | none => pure c
    match o.settings c.disk with
    | .ok s => (← c.path o.path).path s.output.directory
    | .error _ => return c
  | .ok (.inspect o) => c.path o.file
  | _ => return c

/-- Writes what differs between two disks to the file system, directories before what lies in them. -/
def writeBack (before after : Disk) : IO Unit := do
  let changed := after.nodes.filter fun e => before.node? e.1 != some e.2
  for (loc, node) in changed.mergeSort (fun a b => a.1.length ≤ b.1.length) do
    match node with
    | .directory => IO.FS.createDirAll (← fileAt loc)
    | .file bytes => IO.FS.writeBinFile (← fileAt loc) bytes
    | .link _ => pure ()

end Bookbinder

open Bookbinder in
/-- Runs the command line. -/
def main (args : List String) : IO UInt32 := do
  let args := args.map String.toList
  let before := (← copyFor args).disk
  let o := before.runLine args
  writeBack before o.disk
  IO.print (String.ofList o.output)
  if let some t := o.errorText? then IO.eprintln (String.ofList t)
  return UInt32.ofNat o.exitCode
