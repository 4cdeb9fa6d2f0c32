import Bookbinder.Analysis.Basic
import Bookbinder.Book.Writer
import Bookbinder.Command.Help
import Bookbinder.Json.Printer
import Bookbinder.Link.Encoding
import Bookbinder.Settings.File

/-!
# Running commands

A run takes a disk and a command line and gives an `Outcome`: the disk afterwards, what was printed and
how the run ended. Only a build writes to the disk, and only once the project has been analysed.
-/

namespace Bookbinder

/-- How a run ends. -/
inductive Ending where
  | done
  | failed (f : Failure)
  /-- The command line is wrong. -/
  | misused (f : UsageFault)
deriving DecidableEq, Repr

/-- What a run leaves. -/
structure Outcome where
  disk : Disk
  output : Text := []
  ending : Ending := .done

namespace Outcome

/-- The exit code. -/
def exitCode (o : Outcome) : Nat :=
  match o.ending with
  | .done => 0
  | .failed _ => 1
  | .misused _ => 2

/-- The message on the error channel. -/
def errorText? (o : Outcome) : Option Text :=
  match o.ending with
  | .done => none
  | .failed f => some ("Error: ".toList ++ f.message)
  | .misused f => some ("error: ".toList ++ f.message)

end Outcome

/-- The settings file that is looked for in the working directory. -/
def settingsFile : Path := "folio.toml"

/-! ## Building -/

namespace BuildOptions

/-- The settings of a build. -/
def settings (o : BuildOptions) (d : Disk) : Except Failure Settings := do
  let found ← match o.config with
    | some p => Settings.load d p
    | none => .ok (Settings.loadOrDefault d settingsFile)
  let merged := found.merge o.overrides
  let s := if o.includes.isEmpty then merged
    else { merged with sources := { merged.sources with includes := o.includes } }
  match s.fault? with
  | some f => .error (.settings f)
  | none => .ok s

/-- All of a build that comes before writing. -/
def analyze (o : BuildOptions) (d : Disk) : Except Failure (Settings × Analysis) := do
  let s ← o.settings d
  if !d.pathExists o.path then .error (.notFound o.path)
  else
    let a ← Analyzer.ofSettings s
    return (s, ← a.analyze d o.path)

/-- The title of a book: the one asked for, or the name of the project if it has one of its own, or the
name of its directory. -/
def bookTitle (o : BuildOptions) (s : Settings) (root : Path) : Text :=
  let unnamed : ProjectSettings := {}
  let name := if s.project.name = unnamed.name ∨ s.project.name = [] then
      root.fileName?.getD "Project"
    else s.project.name
  o.title.getD name

/-- How the book of a build is written. -/
def bookSettings (o : BuildOptions) (s : Settings) (root : Path) : BookSettings :=
  { directory := s.output.directory
    title := o.bookTitle s root
    author := s.project.author
    description := s.project.description
    theme := s.output.theme }

/-- The number of unreadable sources that are shown. -/
def maxShown : Nat := 5

/-- The lines about sources that could not be read. -/
def unreadableLines (unreadable : List (Path × Failure)) : List Text :=
  if unreadable.isEmpty then []
  else
    let count := decimal unreadable.length
    let shown := (unreadable.take maxShown).map fun u =>
      "  ".toList ++ u.1 ++ ": ".toList ++ u.2.message
    let more := if unreadable.length ≤ maxShown then []
      else ["  ... and ".toList ++ decimal (unreadable.length - maxShown) ++ " more".toList]
    [[], "Unreadable files (".toList ++ count ++ "):".toList] ++ shown ++ more

/-- The lines about an analysis. -/
def analysisLines (r : Analysis) : List Text :=
  ("Linked ".toList ++ decimal r.stats.comments ++ " comments in ".toList ++ decimal r.stats.files ++
    " files (".toList ++ decimal r.stats.documented ++ " documented constructs)".toList) ::
    unreadableLines r.unreadable

/-- Each line with its end. -/
def printed (rows : List Text) : Text := rows.flatMap (· ++ ['\n'])

/-- Builds the book of a project. -/
def run (o : BuildOptions) (d : Disk) : Outcome :=
  match o.analyze d with
  | .error f => { disk := d, ending := .failed f }
  | .ok (s, r) =>
    let b := o.bookSettings s r.root
    match Book.write d b r.categories r.stats with
    | (d, .error e) => { disk := d, output := printed (analysisLines r), ending := .failed (.disk e) }
    | (d, .ok report) =>
      { disk := d
        output := printed (analysisLines r ++
          [report.summary, "Book written to: ".toList ++ b.directory]) }

end BuildOptions

/-! ## Inspecting -/

namespace InspectOptions

/-- What is shown of a comment. -/
def record (o : InspectOptions) (e : Entry) : Json :=
  .obj ([("line".toList, Json.ofOption .nat (e.comment.start.map (·.line))),
    ("construct".toList, e.link.toJson)] ++
    if o.comments then [("comment".toList, e.comment.toJson)] else [])

/-- The comments of the inspected source, each with what it documents. -/
def entries (o : InspectOptions) (d : Disk) : Except Failure (List Entry) := do
  let s := (Settings.loadOrDefault d settingsFile).merge o.overrides
  if !d.pathExists o.file then .error (.notFound o.file)
  else
    let a ← Analyzer.ofSettings s
    a.linkFile d o.file

/-- Prints what the comments of a source document. -/
def run (o : InspectOptions) (d : Disk) : Outcome :=
  match o.entries d with
  | .error f => { disk := d, ending := .failed f }
  | .ok es => { disk := d, output := (Json.ofList o.record es).pretty ++ ['\n'] }

end InspectOptions

/-! ## The command line -/

/-- Runs a command. -/
def Command.run (d : Disk) : Command → Outcome
  | build o => o.run d
  | inspect o => o.run d
  | version => { disk := d, output := versionText ++ ['\n'] }

/-- Answers a command line that describes no run. -/
def Usage.run (d : Disk) : Usage → Outcome
  | help form => { disk := d, output := form.helpText }
  | version => { disk := d, output := versionText ++ ['\n'] }
  | fault f => { disk := d, ending := .misused f }

/-- Runs a command line on a disk. -/
def Disk.runLine (d : Disk) (args : List Text) : Outcome :=
  match Command.parse args with
  | .ok c => c.run d
  | .error u => u.run d

end Bookbinder
