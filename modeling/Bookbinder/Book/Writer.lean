import Bookbinder.Book.Page
import Bookbinder.Book.Project
import Bookbinder.Disk.Basic

/-!
# Writing a book

A book is written as a sequence of actions: directories and pages in the order of the layout, then the
home page unless there is one already, then the project file. The first action that fails ends the run;
what was written before it stays. Every action that is done adds its counts to the report of the run.
-/

namespace Bookbinder

/-- A change of a disk. -/
inductive Action where
  | makeDirectories (p : Path)
  | write (p : Path) (t : Text)
deriving DecidableEq, Repr

namespace Action

/-- The disk after an action, and why it failed if it did. -/
def run (d : Disk) : Action → Disk × Option DiskError
  | makeDirectories p => d.ensureDirectories p.components
  | write p t =>
    match d.writeText p t with
    | .ok d => (d, none)
    | .error e => (d, some e)

/-- The disk after actions in order, up to the first that fails. -/
def runAll (d : Disk) : List Action → Disk × Option DiskError
  | [] => (d, none)
  | a :: as =>
    match a.run d with
    | (d, none) => runAll d as
    | failed => failed

end Action

/-- The counts of a written book. -/
structure Report where
  pages : Nat := 0
  modules : Nat := 0
  entries : Nat := 0
  /-- Comments that document no construct. -/
  skipped : Nat := 0
deriving DecidableEq, Repr

namespace Report

instance : Add Report where
  add r s := ⟨r.pages + s.pages, r.modules + s.modules, r.entries + s.entries, r.skipped + s.skipped⟩

/-- One page. -/
def page : Report := { pages := 1 }

/-- The page of a module. -/
def ofModule (m : ModuleDoc) : Report where
  pages := 1
  modules := 1
  entries := m.documented.length
  skipped := (m.entries.filter (!·.link.isDocumented)).length

/-- The report in a sentence. -/
def summary (r : Report) : Text :=
  "Wrote ".toList ++ decimal r.pages ++ " pages for ".toList ++ decimal r.modules ++
    " modules: ".toList ++ decimal r.entries ++ " documented constructs, ".toList ++
    decimal r.skipped ++ " comments skipped".toList

end Report

namespace Book

/-- An action with what it adds to the report once it is done. -/
structure Step where
  action : Action
  counts : Report := {}
deriving DecidableEq, Repr

/-- The disk and the report after steps in order, up to the first that fails. -/
def Step.runAll (d : Disk) (r : Report) : List Step → Disk × Except DiskError Report
  | [] => (d, .ok r)
  | s :: ss =>
    match s.action.run d with
    | (d, none) => runAll d (r + s.counts) ss
    | (d, some e) => (d, .error e)

/-! ## The steps -/

/-- Writes the page of each module of a sub-category. -/
def moduleSteps (dir : Path) (s : SubCategoryPlace) : List Step :=
  s.modules.map fun m => ⟨.write (dir.join m.2) (Page.ofModule m.1), .ofModule m.1⟩

/-- Makes the directory of a sub-category and writes its pages. -/
def subCategorySteps (categoryDir : Path) (s : SubCategoryPlace) : List Step :=
  let dir := categoryDir.join s.dir
  let links := s.modules.map fun m =>
    ({ name := m.1.info.name, href := m.2, description := m.1.info.description } : Page.PageLink)
  ⟨.makeDirectories dir, {}⟩ ::
    ⟨.write (dir.join Layout.indexPage) (Page.ofSection s.subCategory.name links []), .page⟩ ::
    moduleSteps dir s

/-- Makes the directory of a category and writes its pages. -/
def categorySteps (chapters : Path) (c : CategoryPlace) : List Step :=
  let dir := chapters.join c.dir
  let links := c.subCategories.map fun s =>
    ({ name := s.subCategory.name, href := s.dir ++ '/' :: Layout.indexPage } : Page.PageLink)
  ⟨.makeDirectories dir, {}⟩ ::
    ⟨.write (dir.join Layout.indexPage) (Page.ofSection c.category.name [] links), .page⟩ ::
    c.subCategories.flatMap (subCategorySteps dir)

/-- Writes the chapters. -/
def chapterSteps (b : BookSettings) (l : Layout) : List Step :=
  let chapters := b.directory.join Layout.chaptersDir
  ⟨.makeDirectories chapters, {}⟩ :: l.flatMap (categorySteps chapters)

/-- Writes the pages straight in the directory of the book; the home page is one if `home` is set. -/
def frontSteps (b : BookSettings) (l : Layout) (stats : Stats) (home : Bool) : List Step :=
  (if home then [⟨.write (b.directory.join Layout.homePage)
    (Page.ofHome b.title b.description stats), .page⟩] else []) ++
  [⟨.write (b.directory.join Layout.projectFile) (projectText b l.chapters), {}⟩]

/-! ## The run -/

/-- Writes the book of categories. -/
def write (d : Disk) (b : BookSettings) (cs : List Category) (stats : Stats) :
    Disk × Except DiskError Report :=
  let layout := Layout.ofCategories cs
  match Step.runAll d {} (chapterSteps b layout) with
  | (d, .error e) => (d, .error e)
  | (d, .ok r) =>
    let fresh := !d.pathExists (b.directory.join Layout.homePage)
    Step.runAll d r (frontSteps b layout stats fresh)

end Book

end Bookbinder
