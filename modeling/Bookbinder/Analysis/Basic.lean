import Bookbinder.Analysis.Discovery
import Bookbinder.Module.Category
import Bookbinder.Script.Extract

/-!
# Analysis of a project

An `Analyzer` has settings without fault and the filter they describe. `Analyzer.linkFile` links the
comments of one source; `Analyzer.analyze` does so for all sources of a project and groups the modules.
A source that cannot be read is reported and changes nothing else.
-/

namespace Bookbinder

/-- Settings that are ready to be used. -/
structure Analyzer where
  settings : Settings
  filter : Filter
deriving DecidableEq, Repr

/-- What is known of a project. -/
structure Analysis where
  root : Path
  categories : List Category
  /-- The sources that could not be read, in order. -/
  unreadable : List (Path × Failure)
  stats : Stats
deriving DecidableEq, Repr

/-- The counts of modules. -/
def Stats.ofModules (ms : List ModuleDoc) : Stats :=
  { files := ms.length
    comments := total (ms.map (·.entries.length))
    documented := total (ms.map (·.documented.length)) }

namespace Analyzer

/-- The analyzer of settings; a fault of the settings comes before a fault of a pattern. -/
def ofSettings (s : Settings) : Except Failure Analyzer :=
  match s.fault? with
  | some f => .error (.settings f)
  | none =>
    match Filter.ofSettings s.sources with
    | .error f => .error (.glob f)
    | .ok filter => .ok ⟨s, filter⟩

/-- The comments of a source, each with what it documents. -/
def linkFile (a : Analyzer) (d : Disk) (p : Path) : Except Failure (List Entry) :=
  match d.readText p with
  | .error e => .error (.unreadable p e)
  | .ok content =>
    match Dialect.ofPath? p with
    | none => .error (.unsupported p)
    | some dialect => .ok (a.settings.linking.linkAll content (Script.comments dialect content))

/-- The module of a source. -/
def document (a : Analyzer) (d : Disk) (root : Location) (names : List Text) :
    Except Failure ModuleDoc :=
  (a.linkFile d (sourcePath root names)).map fun entries =>
    .ofEntries (joinWith ['/'] names) entries a.settings.sources.defaultCategory

/-- The analysis of sources below a root. -/
def analyzeSources (a : Analyzer) (d : Disk) (root : Location) (sources : List (List Text)) :
    Analysis :=
  let outcomes := sources.map fun names => (sourcePath root names, a.document d root names)
  let modules := outcomes.filterMap (·.2.toOption)
  { root := root.path
    categories := groupModules modules
    unreadable := outcomes.filterMap fun o =>
      match o.2 with
      | .ok _ => none
      | .error e => some (o.1, e)
    stats := .ofModules modules }

/-- The analysis of the project at a path. -/
def analyze (a : Analyzer) (d : Disk) (p : Path) : Except Failure Analysis :=
  match d.canonical p with
  | .error _ => .error (.notFound p)
  | .ok root =>
    match a.filter.discover d root with
    | [] => .error (.noSources root.path)
    | sources => .ok (a.analyzeSources d root sources)

/-- The number of sources of the project at a path. A path that leads to a single file counts it by the
name it has in the path. -/
def sourceCount (a : Analyzer) (d : Disk) (p : Path) : Nat :=
  match d.canonical p with
  | .error _ => 0
  | .ok root =>
    if d.isDirectory p then (a.filter.discover d root).length
    else if (Dialect.ofPath? p).isSome && a.filter.accepts [] then 1
    else 0

end Analyzer

end Bookbinder
