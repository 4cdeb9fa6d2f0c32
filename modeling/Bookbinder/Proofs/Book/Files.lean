import Bookbinder.Proofs.Book.Counting
import Bookbinder.Proofs.Book.Plan

/-!
# The files of a written book

A book is written by a plan (`Book.plan`): the directories and pages of its layout, the home page and
the project file. The layout is well named, so no two entries of the plan have one location
(`nodup_keys_plan`), and into an empty directory the plan is carried out as it stands
(`write_emptyDirectory`). Hence every page has a file of its own: the files are the ones of
`Book.files`, and each holds the page it was written for (`write_files`).
-/

namespace Bookbinder

/-- The path leads to the directory at `loc`, and nothing lies below it. -/
structure Disk.IsEmptyDirectory (d : Disk) (p : Path) (loc : Location) : Prop where
  leadsTo : d.LeadsTo p loc
  empty : ∀ rel, rel ≠ [] → d.node? (loc ++ rel) = none

namespace Book

/-! ## Pages and their locations -/

/-- The page of a sub-category, with a link to each of its modules. -/
def subCategoryPage (s : SubCategoryPlace) : Text :=
  Page.ofSection s.subCategory.name
    (s.modules.map fun m =>
      { name := m.1.info.name, href := m.2, description := m.1.info.description }) []

/-- The page of a category, with a link to each of its sub-categories. -/
def categoryPage (c : CategoryPlace) : Text :=
  Page.ofSection c.category.name []
    (c.subCategories.map fun s =>
      { name := s.subCategory.name, href := s.dir ++ '/' :: Layout.indexPage })

/-- The files of a book below its directory, with what they hold: an index page for each category and
each sub-category, a page for each module, the home page and the project file. -/
def files (b : BookSettings) (cs : List Category) (stats : Stats) : List (Location × Text) :=
  let layout := Layout.ofCategories cs
  (layout.flatMap fun c =>
    ([Layout.chaptersDir, c.dir, Layout.indexPage], categoryPage c) ::
      c.subCategories.flatMap fun s =>
        ([Layout.chaptersDir, c.dir, s.dir, Layout.indexPage], subCategoryPage s) ::
          s.modules.map fun m =>
            ([Layout.chaptersDir, c.dir, s.dir, m.2], Page.ofModule m.1)) ++
    [([Layout.homePage], Page.ofHome b.title b.description stats),
     ([Layout.projectFile], projectText b layout.chapters)]

/-! ## The plan -/

/-- The pages straight in the directory of a sub-category. -/
def pagesPlan (s : SubCategoryPlace) : Plan :=
  ([Layout.indexPage], .page (subCategoryPage s)) ::
    s.modules.map fun m => ([m.2], .page (Page.ofModule m.1))

/-- The page of a category and its sub-categories. -/
def sectionsPlan (c : CategoryPlace) : Plan :=
  ([Layout.indexPage], .page (categoryPage c)) ::
    c.subCategories.flatMap fun s => Plan.within s.dir (pagesPlan s)

/-- The directory of the chapters. -/
def chaptersPlan (l : Layout) : Plan :=
  Plan.within Layout.chaptersDir (l.flatMap fun c => Plan.within c.dir (sectionsPlan c))

/-- The pages straight in the directory of the book. -/
def frontPlan (b : BookSettings) (l : Layout) (stats : Stats) : Plan :=
  [([Layout.homePage], .page (Page.ofHome b.title b.description stats)),
   ([Layout.projectFile], .page (projectText b l.chapters))]

/-- All that is made for a book. -/
def plan (b : BookSettings) (l : Layout) (stats : Stats) : Plan :=
  chaptersPlan l ++ frontPlan b l stats

theorem chapterActions_eq (b : BookSettings) (l : Layout) :
    chapterActions b l = Plan.actions b.directory (chaptersPlan l) := by
  have hs (dir : Path) (s : SubCategoryPlace) : (subCategorySteps dir s).map (·.action) =
      Plan.actions dir (Plan.within s.dir (pagesPlan s)) := by
    rw [Plan.actions_within, pagesPlan, Plan.actions_cons, Plan.actions, List.map_map,
      subCategorySteps, List.map_cons, List.map_cons, moduleSteps, List.map_map]
    rfl
  have hc (dir : Path) (c : CategoryPlace) : (categorySteps dir c).map (·.action) =
      Plan.actions dir (Plan.within c.dir (sectionsPlan c)) := by
    rw [Plan.actions_within, sectionsPlan, Plan.actions_cons, Plan.actions_flatMap,
      ← funext (hs (dir.join c.dir)), ← List.map_flatMap]
    rfl
  rw [chaptersPlan, Plan.actions_within, Plan.actions_flatMap,
    ← funext (hc (b.directory.join Layout.chaptersDir)), ← List.map_flatMap]
  rfl

/-! ## Locations -/

section Locations

variable {s : SubCategoryPlace} {c : CategoryPlace} {l : Layout}

theorem keys_pagesPlan (s : SubCategoryPlace) :
    (pagesPlan s).keys = (Layout.indexPage :: s.modules.map (·.2)).map ([·]) := by
  simp [pagesPlan, Plan.keys, Function.comp_def]

theorem nodup_keys_pagesPlan (h : s.WellNamed) : (pagesPlan s).keys.Nodup := by
  rw [keys_pagesPlan, List.Nodup, List.pairwise_map]
  exact h.nodup.imp fun hne he => hne (List.cons.inj he).1

theorem nil_not_mem_keys_pagesPlan : [] ∉ (pagesPlan s).keys := by
  simp [keys_pagesPlan]

theorem rooted_pagesPlan (h : s.WellNamed) : Plan.Rooted [[]] (pagesPlan s) := by
  refine Plan.rooted_page_cons Layout.isName_indexPage _ (Plan.rooted_pages fun m hm => ?_)
  exact h.isName m.2 (List.mem_cons_of_mem _ (List.mem_map_of_mem hm))

theorem keys_sectionsPlan (c : CategoryPlace) :
    (sectionsPlan c).keys = [Layout.indexPage] ::
      Plan.keys (c.subCategories.flatMap fun s => Plan.within s.dir (pagesPlan s)) := rfl

theorem nodup_keys_sectionsPlan (h : c.WellNamed) : (sectionsPlan c).keys.Nodup := by
  obtain ⟨hi, hd⟩ := List.nodup_cons.1 h.siblings.nodup
  rw [keys_sectionsPlan, List.nodup_cons]
  refine ⟨Plan.page_not_mem_keys_flatMap_within hi, Plan.nodup_keys_flatMap_within hd ?_⟩
  exact fun s hs => ⟨nodup_keys_pagesPlan (h.subCategory s hs), nil_not_mem_keys_pagesPlan⟩

theorem nil_not_mem_keys_sectionsPlan : [] ∉ (sectionsPlan c).keys := by
  rw [keys_sectionsPlan, Plan.keys_flatMap, List.mem_cons, List.mem_flatMap]
  rintro (h | ⟨s, -, h⟩)
  · simp at h
  · exact Plan.nil_not_mem_keys_within h

theorem rooted_sectionsPlan (h : c.WellNamed) : Plan.Rooted [[]] (sectionsPlan c) := by
  refine Plan.rooted_page_cons Layout.isName_indexPage _ (Plan.rooted_flatMap fun s hs => ?_)
  refine Plan.rooted_within ?_ (rooted_pagesPlan (h.subCategory s hs))
  exact h.siblings.isName s.dir (List.mem_cons_of_mem _ (List.mem_map_of_mem hs))

theorem nodup_keys_chaptersPlan (h : l.WellNamed) : (chaptersPlan l).keys.Nodup := by
  refine Plan.nodup_keys_within (Plan.nodup_keys_flatMap_within h.siblings.nodup fun c hc => ?_) ?_
  · exact ⟨nodup_keys_sectionsPlan (h.category c hc), nil_not_mem_keys_sectionsPlan⟩
  · rw [Plan.keys_flatMap, List.mem_flatMap]
    rintro ⟨c, -, hc⟩
    exact Plan.nil_not_mem_keys_within hc

theorem isName_chaptersDir : Path.IsName Layout.chaptersDir := by constructor <;> decide

theorem rooted_categories (h : l.WellNamed) :
    Plan.Rooted [[]] (l.flatMap fun c => Plan.within c.dir (sectionsPlan c)) := by
  refine Plan.rooted_flatMap fun c hc => Plan.rooted_within ?_ (rooted_sectionsPlan (h.category c hc))
  exact h.siblings.isName c.dir (List.mem_map_of_mem hc)

theorem rooted_chaptersPlan (h : l.WellNamed) : Plan.Rooted [[]] (chaptersPlan l) :=
  Plan.rooted_within isName_chaptersDir (rooted_categories h)

theorem isName_homePage : Path.IsName Layout.homePage := by constructor <;> decide

theorem isName_projectFile : Path.IsName Layout.projectFile := by constructor <;> decide

theorem rooted_frontPlan (b : BookSettings) (l : Layout) (stats : Stats) :
    Plan.Rooted [[]] (frontPlan b l stats) :=
  Plan.rooted_page_cons isName_homePage _ (Plan.rooted_page_cons isName_projectFile _ trivial)

theorem keys_plan (b : BookSettings) (l : Layout) (stats : Stats) :
    (plan b l stats).keys = (chaptersPlan l).keys ++ [[Layout.homePage], [Layout.projectFile]] :=
  List.map_append

/-- The front pages lie beside the chapters. -/
theorem not_mem_keys_chaptersPlan {n : Text} (hn : n ≠ Layout.chaptersDir) :
    [n] ∉ (chaptersPlan l).keys := by
  intro h
  exact hn (Option.some.inj (Plan.head?_of_mem_keys_within h))

/-- No two entries of a book have one location. -/
theorem nodup_keys_plan (b : BookSettings) (h : l.WellNamed) (stats : Stats) :
    (plan b l stats).keys.Nodup := by
  rw [keys_plan, List.nodup_append]
  refine ⟨nodup_keys_chaptersPlan h, by decide, fun key hk key' hk' => ?_⟩
  rintro rfl
  simp only [List.mem_cons, List.not_mem_nil, or_false] at hk'
  rcases hk' with rfl | rfl <;> exact not_mem_keys_chaptersPlan (by decide) hk

theorem nil_not_mem_keys_plan (b : BookSettings) (l : Layout) (stats : Stats) :
    [] ∉ (plan b l stats).keys := by
  rw [keys_plan, List.mem_append]
  rintro (h | h)
  · exact Plan.nil_not_mem_keys_within h
  · simp at h

end Locations

/-! ## The run -/

section Run

variable {d d' : Disk} {b : BookSettings} {cs : List Category} {stats : Stats} {loc : Location}

theorem fresh_of_isEmptyDirectory (he : d.IsEmptyDirectory b.directory loc) {es : Plan}
    (hne : [] ∉ es.keys) : es.Fresh d loc := by
  intro key hk
  refine he.empty key ?_
  rintro rfl
  exact hne hk

theorem rooted_plan (b : BookSettings) (cs : List Category) (stats : Stats) :
    Plan.Rooted [[]] (plan b (Layout.ofCategories cs) stats) :=
  (rooted_chaptersPlan (Layout.wellNamed_ofCategories cs)).append (rooted_frontPlan b _ stats)

theorem leadsTo_pathOf (he : d.IsEmptyDirectory b.directory loc) :
    ∀ dir ∈ [[]], d.LeadsTo (Plan.pathOf b.directory dir) (loc ++ dir) := by
  intro dir hdir
  obtain rfl := List.mem_singleton.1 hdir
  rw [List.append_nil]
  exact he.leadsTo

/-- There is no home page when the chapters of a book have been written into an empty directory. -/
theorem pathExists_homePage (he : d.IsEmptyDirectory b.directory loc) (l : Layout) :
    (Plan.made d loc (chaptersPlan l)).pathExists (b.directory.join Layout.homePage) = false := by
  have hf : Plan.Fresh d loc (chaptersPlan l) :=
    fresh_of_isEmptyDirectory he Plan.nil_not_mem_keys_within
  obtain ⟨links, hj⟩ := (he.leadsTo.mono hf.keeps_made).follow_join isName_homePage
  have hm : (Plan.made d loc (chaptersPlan l)).node? (loc ++ [Layout.homePage]) = none := by
    rw [Plan.node?_made_of_not_mem (not_mem_keys_chaptersPlan (by decide))]
    exact he.empty _ (by simp)
  rw [Disk.pathExists, hj, Disk.followFrom_missing isName_homePage (by decide) hm]

/-- Writing into an empty directory is the run of the whole plan. -/
theorem write_eq_runAll (he : d.IsEmptyDirectory b.directory loc) :
    write d b cs stats =
      match Action.runAll d (Plan.actions b.directory (plan b (Layout.ofCategories cs) stats)) with
      | (d, some e) => (d, .error e)
      | (d, none) => (d, .ok (report cs true)) := by
  have hw := Layout.wellNamed_ofCategories cs
  have hf : Plan.Fresh d loc (chaptersPlan (Layout.ofCategories cs)) :=
    fresh_of_isEmptyDirectory he Plan.nil_not_mem_keys_within
  rw [plan, Plan.actions_append, Plan.runAll_append, write_eq, chapterActions_eq]
  rcases Plan.runAll_actions (rooted_chaptersPlan hw) (leadsTo_pathOf he) hf
    (nodup_keys_chaptersPlan hw) with ⟨-, d', h⟩ | ⟨h, -⟩
  · simp only [h]
  · simp only [h, pathExists_homePage he]
    rfl

/-- Into an empty directory a book is written as planned, and its pages can be read at their paths;
or a name is too long. -/
theorem write_emptyDirectory (he : d.IsEmptyDirectory b.directory loc) (cs : List Category)
    (stats : Stats) :
    let es := plan b (Layout.ofCategories cs) stats
    (es.HasLongName ∧ ∃ d', write d b cs stats = (d', .error .nameTooLong)) ∨
      (write d b cs stats = (Plan.made d loc es, .ok (report cs true)) ∧
        ∀ key t, (key, .page t) ∈ es →
          (Plan.made d loc es).readText (Plan.pathOf b.directory key) = .ok t) := by
  intro es
  have hw := Layout.wellNamed_ofCategories cs
  have hf : Plan.Fresh d loc es := fresh_of_isEmptyDirectory he (nil_not_mem_keys_plan _ _ _)
  rw [write_eq_runAll he]
  rcases Plan.runAll_actions (rooted_plan b cs stats) (leadsTo_pathOf he) hf
    (nodup_keys_plan b hw stats) with ⟨hl, d', h⟩ | ⟨h, hr⟩
  · exact .inl ⟨hl, d', by rw [h]⟩
  · exact .inr ⟨by rw [h], hr⟩

/-! ## The files -/

theorem pages_chaptersPlan (l : Layout) :
    (chaptersPlan l).pages = l.flatMap fun c =>
      ([Layout.chaptersDir, c.dir, Layout.indexPage], categoryPage c) ::
        c.subCategories.flatMap fun s =>
          ([Layout.chaptersDir, c.dir, s.dir, Layout.indexPage], subCategoryPage s) ::
            s.modules.map fun m => ([Layout.chaptersDir, c.dir, s.dir, m.2], Page.ofModule m.1) := by
  have hs (s : SubCategoryPlace) : (pagesPlan s).pages =
      ([Layout.indexPage], subCategoryPage s) ::
        s.modules.map fun m => ([m.2], Page.ofModule m.1) :=
    congrArg (([Layout.indexPage], subCategoryPage s) :: ·) (Plan.pages_map_page ..)
  have hc (c : CategoryPlace) : (sectionsPlan c).pages =
      ([Layout.indexPage], categoryPage c) ::
        Plan.pages (c.subCategories.flatMap fun s => Plan.within s.dir (pagesPlan s)) := rfl
  rw [chaptersPlan, Plan.pages_within, Plan.pages_flatMap, List.map_flatMap]
  simp only [Plan.pages_within, Plan.pages_flatMap, hc, hs, List.map_cons, List.map_map,
    List.map_flatMap]
  rfl

theorem pages_plan (b : BookSettings) (cs : List Category) (stats : Stats) :
    (plan b (Layout.ofCategories cs) stats).pages = files b cs stats := by
  have hp : (plan b (Layout.ofCategories cs) stats).pages =
      (chaptersPlan (Layout.ofCategories cs)).pages ++
        (frontPlan b (Layout.ofCategories cs) stats).pages := List.filterMap_append
  rw [hp, pages_chaptersPlan]
  rfl

/-- `d'` holds the book of the categories in the directory at `loc`, and all that was in `d`. -/
structure HoldsBook (d d' : Disk) (b : BookSettings) (cs : List Category) (stats : Stats)
    (loc : Location) : Prop where
  /-- Each category, sub-category and module has its place in the layout, in order. -/
  placed : (Layout.ofCategories cs).map CategoryPlace.contents = cs
  /-- The files of modules are pages. -/
  isPage : ∀ c ∈ Layout.ofCategories cs, ∀ s ∈ c.subCategories, ∀ m ∈ s.modules,
    ".qmd".toList <:+ m.2
  /-- No two pages have one location. -/
  distinct : ((files b cs stats).map (·.1)).Nodup
  /-- What lies below the directory and is no directory is a file of the book with its page. -/
  files_iff : ∀ rel, rel ≠ [] → ∀ node, node ≠ .directory →
    (d'.node? (loc ++ rel) = some node ↔
      ∃ t, (rel, t) ∈ files b cs stats ∧ node = .file (Disk.encode t))
  /-- Each file is read at its path. -/
  readable : ∀ f ∈ files b cs stats, d'.readText (Plan.pathOf b.directory f.1) = .ok f.2
  /-- Nothing is overwritten. -/
  keeps : d.Keeps d'

theorem node?_made_plan (he : d.IsEmptyDirectory b.directory loc) {rel : Location} (hr : rel ≠ [])
    {node : Node} (hn : node ≠ .directory) :
    (Plan.made d loc (plan b (Layout.ofCategories cs) stats)).node? (loc ++ rel) = some node ↔
      ∃ t, (rel, t) ∈ files b cs stats ∧ node = .file (Disk.encode t) := by
  have hd := nodup_keys_plan b (Layout.wellNamed_ofCategories cs) stats
  have hne := nil_not_mem_keys_plan b (Layout.ofCategories cs) stats
  constructor
  · intro h
    by_cases hk : rel ∈ (plan b (Layout.ofCategories cs) stats).keys
    · obtain ⟨⟨key, x⟩, hm, rfl⟩ := List.mem_map.1 hk
      rw [Plan.node?_made_of_mem hd hne hm, Option.some.injEq] at h
      cases x with
      | directory => exact absurd h.symm hn
      | page t => exact ⟨t, by rwa [← pages_plan, Plan.mem_pages], h.symm⟩
    · rw [Plan.node?_made_of_not_mem hk, he.empty rel hr] at h
      simp at h
  · rintro ⟨t, hm, rfl⟩
    rw [← pages_plan, Plan.mem_pages] at hm
    exact Plan.node?_made_of_mem hd hne hm

/-- Every page of a book that is written into an empty directory has a file of its own, whatever the
names of categories, sub-categories and modules are. -/
theorem write_files {r : Report} (he : d.IsEmptyDirectory b.directory loc)
    (hw : write d b cs stats = (d', .ok r)) : HoldsBook d d' b cs stats loc := by
  rcases write_emptyDirectory he cs stats with ⟨-, d₁, h⟩ | ⟨h, hr⟩
  · simp [h] at hw
  · obtain ⟨rfl, -⟩ := Prod.mk.inj (h.symm.trans hw)
    have hd := nodup_keys_plan b (Layout.wellNamed_ofCategories cs) stats
    refine ⟨Layout.contents_ofCategories cs, ?_, ?_, ?_, ?_, ?_⟩
    · exact fun c hc s hs m hm => Layout.isSuffix_of_mem_modules hc hs hm
    · rw [← pages_plan]
      exact (Plan.keys_pages_sublist _).nodup hd
    · exact fun rel hr node hn => node?_made_plan he hr hn
    · intro f hf
      rw [← pages_plan, Plan.mem_pages] at hf
      exact hr f.1 f.2 hf
    · exact (fresh_of_isEmptyDirectory he (nil_not_mem_keys_plan _ _ _)).keeps_made

end Run

/-! ## A book with clashing names -/

/-- A module with nothing but a name. -/
def bareModule (name : String) : ModuleDoc := ⟨⟨name, [], "a.js", [], []⟩, []⟩

/-- Categories whose names clash: names that differ in case only, a name with no letter, modules called
`index`, and a module whose name is the numbered name of another. -/
def clashing : List Category :=
  [⟨"Core", [⟨"api", ["index", "Index", "util", "util", "util-2", "!"].map bareModule⟩, ⟨"API", []⟩]⟩,
   ⟨"core", []⟩, ⟨"?", []⟩]

/-- An empty directory. -/
def shelf : Disk := { nodes := [(["out".toList], .directory)] }

def shelfBook : BookSettings := { directory := "out", title := "Book", theme := "cosmo" }

theorem isEmptyDirectory_shelf :
    shelf.IsEmptyDirectory shelfBook.directory ["out".toList] where
  leadsTo := Disk.leadsTo_of_way (.enter ⟨by decide, by decide, by decide⟩ rfl .done)
  empty := by
    intro rel hr
    have hb : (["out".toList] ++ rel == ["out".toList]) = false := by simpa using hr
    rw [Disk.node?, if_neg (by simp), shelf, List.lookup_cons, hb]
    rfl

theorem write_files_clashing :
    ∃ d' r, shelf.IsEmptyDirectory shelfBook.directory ["out".toList] ∧
      write shelf shelfBook clashing {} = (d', .ok r) ∧
      HoldsBook shelf d' shelfBook clashing {} ["out".toList] := by
  have hs : ¬(plan shelfBook (Layout.ofCategories clashing) {}).HasLongName := by
    unfold Plan.HasLongName
    decide +kernel
  obtain ⟨hl, -⟩ | ⟨hw, -⟩ := write_emptyDirectory isEmptyDirectory_shelf clashing {}
  · exact absurd hl hs
  · exact ⟨_, _, isEmptyDirectory_shelf, hw, write_files isEmptyDirectory_shelf hw⟩

example : ((files shelfBook clashing {}).map fun f => String.ofList (joinWith ['/'] f.1)) =
    ["chapters/core/index.qmd", "chapters/core/api/index.qmd", "chapters/core/api/index-module.qmd",
     "chapters/core/api/index-module-2.qmd", "chapters/core/api/util.qmd",
     "chapters/core/api/util-2.qmd", "chapters/core/api/util-2-2.qmd", "chapters/core/api/module.qmd",
     "chapters/core/api-2/index.qmd", "chapters/core-2/index.qmd", "chapters/untitled/index.qmd",
     "index.md", "_quarto.yml"] := by
  decide +kernel

end Book

end Bookbinder
