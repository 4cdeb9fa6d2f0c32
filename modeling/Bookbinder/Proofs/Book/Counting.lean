import Bookbinder.Book.Writer
import Bookbinder.Proofs.Book.Layout
import Bookbinder.Proofs.Module.Grouping

/-!
# What a run counts

A run over steps is the run over their actions, and its report is what the steps count together
(`Step.runAll_eq`). Each step counts index pages and pages of modules, which add up over a layout
(`counted_chapterSteps`), so that the report of a written book is a matter of its categories and of the
home page (`Book.report`, `write_eq`).
-/

namespace Bookbinder

namespace Report

variable {i j : Nat} {ms ns : List ModuleDoc}

theorem add_def (r s : Report) :
    r + s = ⟨r.pages + s.pages, r.modules + s.modules, r.entries + s.entries,
      r.skipped + s.skipped⟩ := rfl

theorem add_assoc (r s t : Report) : r + s + t = r + (s + t) := by
  simp only [add_def, Nat.add_assoc]

theorem zero_add (r : Report) : ({} : Report) + r = r := by
  simp only [add_def, Nat.zero_add]

/-- What so many index pages and the pages of modules count. -/
def ofPages (index : Nat) (ms : List ModuleDoc) : Report where
  pages := index + ms.length
  modules := ms.length
  entries := total (ms.map (·.documented.length))
  skipped := total (ms.map fun m => (m.entries.filter (!·.link.isDocumented)).length)

theorem ofPages_cons (index : Nat) (m : ModuleDoc) (ms : List ModuleDoc) :
    ofPages index (m :: ms) = ofModule m + ofPages index ms := by
  simp only [ofPages, ofModule, add_def, List.length_cons, List.map_cons, total_cons, mk.injEq,
    and_true]
  omega

theorem ofPages_add : ofPages i ms + ofPages j ns = ofPages (i + j) (ms ++ ns) := by
  induction ms with
  | nil => simp [ofPages, add_def, total, Nat.add_assoc]
  | cons m ms ih => rw [List.cons_append, ofPages_cons, ofPages_cons, add_assoc, ih]

end Report

/-! ## Runs -/

namespace Book

/-- What steps count together. -/
def Step.counted (ss : List Step) : Report := ss.foldr (·.counts + ·) {}

namespace Step

theorem counted_cons (s : Step) (ss : List Step) : counted (s :: ss) = s.counts + counted ss := rfl

theorem counted_append (ss ss' : List Step) : counted (ss ++ ss') = counted ss + counted ss' := by
  induction ss with
  | nil => exact (Report.zero_add _).symm
  | cons s ss ih => rw [List.cons_append, counted_cons, ih, counted_cons, Report.add_assoc]

/-- A run does the actions of its steps, and a successful one adds all their counts to the report. -/
theorem runAll_eq (d : Disk) (r : Report) (ss : List Step) :
    runAll d r ss = match Action.runAll d (ss.map (·.action)) with
      | (d', some e) => (d', .error e)
      | (d', none) => (d', .ok (r + counted ss)) := by
  induction ss generalizing d r with
  | nil => rfl
  | cons s ss ih =>
    rw [runAll, List.map_cons, Action.runAll, counted_cons]
    rcases s.action.run d with ⟨d₁, _ | e⟩
    · rw [← Report.add_assoc]
      exact ih d₁ _
    · rfl

/-- The counts add up over steps for many things. -/
theorem counted_flatMap {α : Type} {steps : α → List Step} {index : α → Nat}
    {modules : α → List ModuleDoc}
    (h : ∀ a, counted (steps a) = .ofPages (index a) (modules a)) (l : List α) :
    counted (l.flatMap steps) = .ofPages (total (l.map index)) (l.flatMap modules) := by
  induction l with
  | nil => rfl
  | cons a l ih =>
    rw [List.flatMap_cons, counted_append, h, ih, Report.ofPages_add]
    rfl

end Step

/-! ## The chapters -/

theorem counted_moduleSteps (dir : Path) (s : SubCategoryPlace) :
    Step.counted (moduleSteps dir s) = .ofPages 0 s.contents.modules := by
  rw [moduleSteps, SubCategoryPlace.contents]
  induction s.modules with
  | nil => rfl
  | cons m ms ih => rw [List.map_cons, Step.counted_cons, ih, List.map_cons, Report.ofPages_cons]

theorem counted_subCategorySteps (dir : Path) (s : SubCategoryPlace) :
    Step.counted (subCategorySteps dir s) = .ofPages 1 s.contents.modules := by
  have hpage : Step.counted (subCategorySteps dir s) =
      ({} : Report) + (.ofPages 1 [] + Step.counted (moduleSteps (dir.join s.dir) s)) := rfl
  rw [hpage, Report.zero_add, counted_moduleSteps, Report.ofPages_add]
  rfl

theorem counted_categorySteps (dir : Path) (c : CategoryPlace) :
    Step.counted (categorySteps dir c) =
      .ofPages (1 + c.contents.subCategories.length) c.contents.modules := by
  have hpage : Step.counted (categorySteps dir c) = ({} : Report) + (.ofPages 1 [] +
      Step.counted (c.subCategories.flatMap (subCategorySteps (dir.join c.dir)))) := rfl
  have hindex : total (c.subCategories.map fun _ => 1) = c.contents.subCategories.length := by
    simp only [CategoryPlace.contents, List.length_map]
    induction c.subCategories with
    | nil => rfl
    | cons s ss ih => rw [List.map_cons, total_cons, ih, List.length_cons, Nat.add_comm]
  rw [hpage, Report.zero_add, Step.counted_flatMap (counted_subCategorySteps _), Report.ofPages_add,
    hindex, List.nil_append, Category.modules, CategoryPlace.contents, List.flatMap_map]

/-- The actions that write the chapters. -/
def chapterActions (b : BookSettings) (l : Layout) : List Action := (chapterSteps b l).map (·.action)

/-- What a written book counts; `home` tells whether the home page was written. -/
def report (cs : List Category) (home : Bool) : Report :=
  let ms := cs.flatMap Category.modules
  { pages := cs.length + total (cs.map (·.subCategories.length)) + ms.length + if home then 1 else 0
    modules := ms.length
    entries := total (ms.map (·.documented.length))
    skipped := total (ms.map fun m => (m.entries.filter (!·.link.isDocumented)).length) }

/-- One index page for each category, and one for each of its sub-categories. -/
theorem total_index (cs : List Category) :
    total (cs.map fun c => 1 + c.subCategories.length) =
      cs.length + total (cs.map (·.subCategories.length)) := by
  induction cs with
  | nil => rfl
  | cons c cs ih =>
    simp only [List.map_cons, total_cons, List.length_cons, ih]
    omega

/-- The chapters count the categories, whatever names their pages have got. -/
theorem counted_chapterSteps (b : BookSettings) (cs : List Category) :
    Step.counted (chapterSteps b (Layout.ofCategories cs)) = report cs false := by
  have hindex : ((Layout.ofCategories cs).map fun c => 1 + c.contents.subCategories.length) =
      cs.map fun c => 1 + c.subCategories.length := by
    conv_rhs => rw [← Layout.contents_ofCategories cs, List.map_map]
    rfl
  have hmodules : (Layout.ofCategories cs).flatMap (·.contents.modules) =
      cs.flatMap Category.modules := by
    conv_rhs => rw [← Layout.contents_ofCategories cs, List.flatMap_map]
  have hsteps : Step.counted (chapterSteps b (Layout.ofCategories cs)) = ({} : Report) + Step.counted
      ((Layout.ofCategories cs).flatMap (categorySteps (b.directory.join Layout.chaptersDir))) := rfl
  rw [hsteps, Report.zero_add, Step.counted_flatMap (counted_categorySteps _), hindex, hmodules,
    total_index]
  rfl

/-! ## The book -/

theorem report_add_counted_frontSteps (b : BookSettings) (l : Layout) (stats : Stats)
    (cs : List Category) (home : Bool) :
    report cs false + Step.counted (frontSteps b l stats home) = report cs home := by
  cases home <;> rfl

/-- Writing a book is the run of the actions for the chapters and then of those for the front pages. Its
report counts the categories, and the home page if it was not there when the chapters were written. -/
theorem write_eq (d : Disk) (b : BookSettings) (cs : List Category) (stats : Stats) :
    write d b cs stats =
      match Action.runAll d (chapterActions b (Layout.ofCategories cs)) with
      | (d₁, some e) => (d₁, .error e)
      | (d₁, none) =>
        let home := !d₁.pathExists (b.directory.join Layout.homePage)
        match Action.runAll d₁
          ((frontSteps b (Layout.ofCategories cs) stats home).map (·.action)) with
        | (d₂, some e) => (d₂, .error e)
        | (d₂, none) => (d₂, .ok (report cs home)) := by
  rw [write, Step.runAll_eq, Report.zero_add, counted_chapterSteps, chapterActions]
  rcases Action.runAll d _ with ⟨d₁, _ | e⟩
  · simp only [Step.runAll_eq, report_add_counted_frontSteps]
  · rfl

end Book

end Bookbinder
