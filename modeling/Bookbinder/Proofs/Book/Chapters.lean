import Bookbinder.Proofs.Book.Files
import Bookbinder.Proofs.Book.Written

/-!
# The chapters of a book

The list of chapters, the links on index pages and the pages that are written speak of the same files.
`Layout.chapterPaths` lists the paths of the chapters and `Book.chapterPages` the pages that are written
for them; both go through the plan of the book (`map_join_chapterPaths`, `chapterPages_eq`). A link
resolved against the directory of its page is the path of the page it names (`isLinked_of_mem`).
Whatever lies in the directory of a book, after a successful run these paths lead to files and no other
file has changed; if no link lies there, each file holds its page (`write_chapters`).
-/

namespace Bookbinder

def Chapter.paths : Chapter → List Path
  | page path => [path]
  | part path pages => path :: pages

/-- The paths of all chapters, below the directory of the book. -/
def Layout.chapterPaths (l : Layout) : List Path := l.chapters.flatMap Chapter.paths

namespace Plan

/-- A location below a directory, written as one path. -/
theorem pathOf_eq_join (out : Path) {key : Location} (h : Path.AreNames key) :
    pathOf out key = out.join (joinWith ['/'] key) := by
  obtain ⟨hne, hn⟩ := h
  induction key generalizing out with
  | nil => exact absurd rfl hne
  | cons n key ih =>
    cases key with
    | nil => rfl
    | cons m key =>
      have hm : ∀ k ∈ m :: key, Path.IsName k := fun k hk => hn k (List.mem_cons_of_mem _ hk)
      have habs : Path.isAbsolute (joinWith ['/'] (m :: key)) = false := by
        obtain ⟨x, m, rfl⟩ := List.exists_cons_of_ne_nil (hm m (by simp)).ne_nil
        have hx := (hm (x :: m) (by simp)).head?_ne
        cases key <;> simpa [Path.isAbsolute, joinWith] using hx
      have he : pathOf out (n :: m :: key) = pathOf (out.join n) (m :: key) := rfl
      rw [he, ih _ (by simp) hm, Path.join_join out (hn n (by simp)) habs, joinWith_cons_cons,
        List.append_assoc]
      rfl

end Plan

namespace Book

/-- The pages that are written for the chapters, with their paths. -/
def chapterPages (b : BookSettings) (cs : List Category) : List (Path × Text) :=
  Action.writes (chapterActions b (Layout.ofCategories cs))

theorem chapterPages_eq (b : BookSettings) (cs : List Category) :
    chapterPages b cs =
      (chaptersPlan (Layout.ofCategories cs)).pages.map fun f =>
        (Plan.pathOf b.directory f.1, f.2) := by
  rw [chapterPages, chapterActions_eq, Action.writes_actions]

/-! ## Paths -/

theorem chapterPaths_eq (l : Layout) :
    l.chapterPaths =
      (([Layout.homePage] : Location) :: (chaptersPlan l).pages.map (·.1)).map (joinWith ['/']) := by
  have hs : Layout.subCategoryPages = fun dir s =>
      Layout.below [Layout.chaptersDir, dir, s.dir] Layout.indexPage ::
        s.modules.map fun m => Layout.below [Layout.chaptersDir, dir, s.dir] m.2 := by
    funext dir s
    rw [Layout.subCategoryPages, List.map_cons, List.map_map]
    rfl
  rw [pages_chaptersPlan, Layout.chapterPaths, Layout.chapters, List.flatMap_cons]
  simp only [List.map_cons, List.map_flatMap, List.map_map, List.flatMap_map, Chapter.paths, hs]
  rfl

theorem areNames_of_mem_chapters {cs : List Category} {key : Location}
    (h : key ∈ (chaptersPlan (Layout.ofCategories cs)).keys) : Path.AreNames key := by
  have hr := rooted_chaptersPlan (Layout.wellNamed_ofCategories cs)
  exact hr.areNames (by simp) key h

/-- The list of chapters names the home page and the pages that are written, in the same order. -/
theorem map_join_chapterPaths (b : BookSettings) (cs : List Category) :
    (Layout.ofCategories cs).chapterPaths.map b.directory.join =
      b.directory.join Layout.homePage :: (chapterPages b cs).map (·.1) := by
  rw [chapterPaths_eq, chapterPages_eq, List.map_map, List.map_cons, List.map_map, List.map_map]
  congr 1
  apply List.map_congr_left
  intro f hf
  have hk : f.1 ∈ (chaptersPlan (Layout.ofCategories cs)).keys :=
    (Plan.keys_pages_sublist _).subset (List.mem_map_of_mem hf)
  exact (Plan.pathOf_eq_join b.directory (areNames_of_mem_chapters hk)).symm

theorem nodup_chapterPaths (cs : List Category) : (Layout.ofCategories cs).chapterPaths.Nodup := by
  have hw := Layout.wellNamed_ofCategories cs
  have hsub := Plan.keys_pages_sublist (chaptersPlan (Layout.ofCategories cs))
  have hkeys : (([Layout.homePage] : Location) ::
      (chaptersPlan (Layout.ofCategories cs)).pages.map (·.1)).Nodup := by
    refine List.nodup_cons.2 ⟨fun h => ?_, hsub.nodup (nodup_keys_chaptersPlan hw)⟩
    exact not_mem_keys_chaptersPlan (by decide) (hsub.subset h)
  have hnames : ∀ key ∈ ([Layout.homePage] : Location) ::
      (chaptersPlan (Layout.ofCategories cs)).pages.map (·.1), Path.AreNames key := by
    refine List.forall_mem_cons.2 ⟨⟨by simp, ?_⟩, fun key hk => ?_⟩
    · simpa using isName_homePage
    · exact areNames_of_mem_chapters (hsub.subset hk)
  rw [chapterPaths_eq]
  exact hkeys.map_on fun key hk key' hk' he => (hnames key hk).joinWith_inj (hnames key' hk') he

/-! ## Links -/

/-- On a page in the directory `dir` the link carries the name and leads to the file that the page is
written to. -/
structure LinksTo (pages : List (Path × Text)) (dir : Path) (link : Page.PageLink) (name : Text)
    (file : Path) (page : Text) : Prop where
  carries : link.name = name
  resolves : dir.join link.href = file
  written : (file, page) ∈ pages

/-- The page of a category in the directory `dir` has a link to each sub-category in order, and the page
of each of these a link to each module in order. -/
def IsLinked (pages : List (Path × Text)) (dir : Path) (c : CategoryPlace) : Prop :=
  ∃ sections, (dir.join Layout.indexPage, Page.ofSection c.contents.name [] sections) ∈ pages ∧
    List.Forall₂ (fun s link => ∃ modules,
      LinksTo pages dir link s.contents.name ((dir.join s.dir).join Layout.indexPage)
        (Page.ofSection s.contents.name modules []) ∧
      List.Forall₂ (fun m link =>
        LinksTo pages (dir.join s.dir) link m.1.info.name ((dir.join s.dir).join m.2)
          (Page.ofModule m.1)) s.modules modules) c.subCategories sections

section Links

variable {cs : List Category} {c : CategoryPlace} {s : SubCategoryPlace} {m : ModuleDoc × Text}

theorem mem_chapterPages (b : BookSettings) {key : Location} {t : Text}
    (h : (key, t) ∈ (chaptersPlan (Layout.ofCategories cs)).pages) :
    (Plan.pathOf b.directory key, t) ∈ chapterPages b cs := by
  rw [chapterPages_eq]
  exact List.mem_map_of_mem h

theorem categoryPage_mem (b : BookSettings) (hc : c ∈ Layout.ofCategories cs) :
    (Plan.pathOf b.directory [Layout.chaptersDir, c.dir, Layout.indexPage], categoryPage c) ∈
      chapterPages b cs := by
  apply mem_chapterPages
  rw [pages_chaptersPlan]
  exact List.mem_flatMap.2 ⟨c, hc, List.mem_cons_self ..⟩

theorem subCategoryPage_mem (b : BookSettings) (hc : c ∈ Layout.ofCategories cs)
    (hs : s ∈ c.subCategories) :
    (Plan.pathOf b.directory [Layout.chaptersDir, c.dir, s.dir, Layout.indexPage],
      subCategoryPage s) ∈ chapterPages b cs := by
  apply mem_chapterPages
  rw [pages_chaptersPlan]
  refine List.mem_flatMap.2 ⟨c, hc, List.mem_cons_of_mem _ ?_⟩
  exact List.mem_flatMap.2 ⟨s, hs, List.mem_cons_self ..⟩

theorem modulePage_mem (b : BookSettings) (hc : c ∈ Layout.ofCategories cs)
    (hs : s ∈ c.subCategories) (hm : m ∈ s.modules) :
    (Plan.pathOf b.directory [Layout.chaptersDir, c.dir, s.dir, m.2], Page.ofModule m.1) ∈
      chapterPages b cs := by
  apply mem_chapterPages
  rw [pages_chaptersPlan]
  refine List.mem_flatMap.2 ⟨c, hc, List.mem_cons_of_mem _ ?_⟩
  refine List.mem_flatMap.2 ⟨s, hs, List.mem_cons_of_mem _ ?_⟩
  exact List.mem_map_of_mem (f := fun m : ModuleDoc × Text =>
    ([Layout.chaptersDir, c.dir, s.dir, m.2], Page.ofModule m.1)) hm

theorem isLinked_of_mem (b : BookSettings) (hc : c ∈ Layout.ofCategories cs) :
    IsLinked (chapterPages b cs) ((b.directory.join Layout.chaptersDir).join c.dir) c := by
  have hw := (Layout.wellNamed_ofCategories cs).category c hc
  refine ⟨_, categoryPage_mem b hc, ?_⟩
  rw [List.forall₂_map_right_iff, List.forall₂_same]
  intro s hs
  have hdir : Path.IsName s.dir :=
    hw.siblings.isName s.dir (List.mem_cons_of_mem _ (List.mem_map_of_mem hs))
  refine ⟨_, ⟨rfl, (Path.join_join _ hdir rfl).symm, subCategoryPage_mem b hc hs⟩, ?_⟩
  rw [List.forall₂_map_right_iff, List.forall₂_same]
  intro m hm
  exact ⟨rfl, rfl, modulePage_mem b hc hs hm⟩

end Links

/-! ## The run -/

/-- The front pages that are written; the home page is one of them if `home` is set. -/
def frontEntries (b : BookSettings) (l : Layout) (stats : Stats) (home : Bool) : Plan :=
  if home then frontPlan b l stats else (frontPlan b l stats).tail

section Run

variable {d d' : Disk} {b : BookSettings} {cs : List Category} {stats : Stats} {r : Report}

/-- A successful run writes the chapters, and then the front pages with a home page if there is none. -/
theorem write_ok_iff : write d b cs stats = (d', .ok r) ↔
    ∃ d₁ home, Action.runAll d (chapterActions b (Layout.ofCategories cs)) = (d₁, none) ∧
      home = !d₁.pathExists (b.directory.join Layout.homePage) ∧ r = report cs home ∧
      Action.runAll d₁ (Plan.actions b.directory
        (frontEntries b (Layout.ofCategories cs) stats home)) = (d', none) := by
  have hfront (home : Bool) :
      Plan.actions b.directory (frontEntries b (Layout.ofCategories cs) stats home) =
        (frontSteps b (Layout.ofCategories cs) stats home).map (·.action) := by
    cases home <;> rfl
  simp only [write_eq, hfront]
  constructor
  · intro hw
    split at hw
    · simp at hw
    · rename_i d₁ h₁
      split at hw
      · simp at hw
      · rename_i d₂ h₂
        cases hw
        exact ⟨d₁, _, h₁, rfl, rfl, h₂⟩
  · rintro ⟨d₁, home, h₁, rfl, rfl, h₂⟩
    simp only [h₁, h₂]

/-- The entries of a plan that a run makes. -/
def entries (b : BookSettings) (l : Layout) (stats : Stats) (home : Bool) : Plan :=
  chaptersPlan l ++ frontEntries b l stats home

theorem pages_entries (b : BookSettings) (l : Layout) (stats : Stats) (home : Bool) :
    (entries b l stats home).pages =
      (chaptersPlan l).pages ++ (frontEntries b l stats home).pages := List.filterMap_append

theorem keys_entries_sublist (b : BookSettings) (l : Layout) (stats : Stats) (home : Bool) :
    (entries b l stats home).keys.Sublist (plan b l stats).keys := by
  apply List.Sublist.map
  apply List.Sublist.append_left
  cases home with
  | false => exact List.tail_sublist (frontPlan b l stats)
  | true => exact .refl _

theorem write_leaves (hw : write d b cs stats = (d', .ok r)) :
    ∃ home, Action.Leaves ((entries b (Layout.ofCategories cs) stats home).pages.map fun f =>
      (Plan.pathOf b.directory f.1, f.2)) d d' := by
  obtain ⟨d₁, home, h₁, -, -, h₂⟩ := write_ok_iff.1 hw
  have h := (Action.runAll_leaves h₁).append (Action.runAll_leaves h₂)
  rw [chapterActions_eq, Action.writes_actions, Action.writes_actions, ← List.map_append,
    ← pages_entries] at h
  exact ⟨home, h⟩

theorem exists_path_of_mem_entries {home : Bool} {w : Path × Text}
    (h : w ∈ (entries b (Layout.ofCategories cs) stats home).pages.map fun f =>
      (Plan.pathOf b.directory f.1, f.2)) :
    ∃ p ∈ Layout.projectFile :: (Layout.ofCategories cs).chapterPaths, w.1 = b.directory.join p := by
  have hpaths := map_join_chapterPaths b cs
  have hlisted : w.1 ∈ b.directory.join Layout.homePage :: (chapterPages b cs).map (·.1) →
      ∃ p ∈ Layout.projectFile :: (Layout.ofCategories cs).chapterPaths,
        w.1 = b.directory.join p := by
    intro hm
    obtain ⟨p, hp, he⟩ := List.mem_map.1 (hpaths ▸ hm)
    exact ⟨p, List.mem_cons_of_mem _ hp, he.symm⟩
  rw [pages_entries, List.map_append, ← chapterPages_eq, List.mem_append] at h
  rcases h with h | h
  · exact hlisted (List.mem_cons_of_mem _ (List.mem_map_of_mem h))
  · obtain ⟨f, hf, rfl⟩ := List.mem_map.1 h
    have hfront : f ∈ (frontPlan b (Layout.ofCategories cs) stats).pages := by
      cases home with
      | true => exact hf
      | false => exact List.mem_cons_of_mem _ hf
    rcases List.mem_cons.1 hfront with rfl | hfront
    · exact hlisted (List.mem_cons_self ..)
    · obtain rfl := List.mem_singleton.1 hfront
      exact ⟨Layout.projectFile, List.mem_cons_self .., rfl⟩

/-- The directory of the book is there in the end: the project file was written into it. -/
theorem exists_leadsTo_of_write (hw : write d b cs stats = (d', .ok r)) :
    ∃ loc, d'.LeadsTo b.directory loc := by
  obtain ⟨d₁, home, -, -, -, h₂⟩ := write_ok_iff.1 hw
  have hl := Action.runAll_leaves h₂
  rw [Action.writes_actions] at hl
  have hm : ([Layout.projectFile], projectText b (Layout.ofCategories cs).chapters) ∈
      (frontEntries b (Layout.ofCategories cs) stats home).pages := by
    cases home with
    | true => exact List.mem_cons_of_mem _ (List.mem_cons_self ..)
    | false => exact List.mem_cons_self ..
  obtain ⟨loc, bytes, hf, -⟩ := hl.written _ (List.mem_map_of_mem hm)
  exact Disk.exists_leadsTo_of_follow_join isName_projectFile hf

/-- The home page is there in the end, whether it was written or not. -/
theorem pathExists_homePage_of_write (hw : write d b cs stats = (d', .ok r)) :
    d'.pathExists (b.directory.join Layout.homePage) := by
  obtain ⟨d₁, home, -, hhome, -, h₂⟩ := write_ok_iff.1 hw
  have hl := Action.runAll_leaves h₂
  rw [Action.writes_actions] at hl
  cases hd : d₁.pathExists (b.directory.join Layout.homePage) with
  | true => exact hl.grows.pathExists hd
  | false =>
    rw [hd] at hhome
    subst hhome
    obtain ⟨loc, bytes, hf, -⟩ := hl.written _ (List.mem_map_of_mem (List.mem_cons_self ..))
    exact Disk.pathExists_of_follow_file hf

/-- The list of chapters, the links and the files agree after a run from `d` to `d'`. -/
structure ChaptersAgree (d d' : Disk) (b : BookSettings) (cs : List Category) : Prop where
  /-- Each category, sub-category and module has its place in the layout, in order. -/
  placed : (Layout.ofCategories cs).map CategoryPlace.contents = cs
  /-- No path is listed twice. -/
  nodup : (Layout.ofCategories cs).chapterPaths.Nodup
  /-- The paths are those of the home page and of the pages that are written. -/
  paths : (Layout.ofCategories cs).chapterPaths.map b.directory.join =
    b.directory.join Layout.homePage :: (chapterPages b cs).map (·.1)
  /-- Each link carries the name of what it stands for and leads to its page. -/
  links : ∀ c ∈ Layout.ofCategories cs,
    IsLinked (chapterPages b cs) ((b.directory.join Layout.chaptersDir).join c.dir) c
  /-- At each path something is there. -/
  pathExists : ∀ p ∈ (Layout.ofCategories cs).chapterPaths, d'.pathExists (b.directory.join p)
  /-- Each page was written to a file. -/
  isFile : ∀ f ∈ chapterPages b cs, ∃ loc bytes, d'.follow f.1 = .ok (.file loc bytes)
  /-- No file is changed but those at the paths and the project file. -/
  node : ∀ l, d'.node? l = d.node? l ∨ (d.node? l = none ∧ d'.node? l = some .directory) ∨
    ∃ p ∈ Layout.projectFile :: (Layout.ofCategories cs).chapterPaths,
      ∃ bytes, d'.follow (b.directory.join p) = .ok (.file l bytes)
  /-- If no link lies in the directory of the book, each file holds its page. -/
  readable : ∃ loc, d'.LeadsTo b.directory loc ∧
    (d.NoLinkBelow loc → ∀ f ∈ chapterPages b cs, d'.readText f.1 = .ok f.2)

theorem write_chapters (hw : write d b cs stats = (d', .ok r)) : ChaptersAgree d d' b cs := by
  obtain ⟨home, hl⟩ := write_leaves hw
  have hsub : ∀ f ∈ chapterPages b cs, f ∈ (entries b (Layout.ofCategories cs) stats home).pages.map
      fun f => (Plan.pathOf b.directory f.1, f.2) := by
    rw [pages_entries, List.map_append, ← chapterPages_eq]
    exact fun f hf => List.mem_append_left _ hf
  have hfile : ∀ f ∈ chapterPages b cs, ∃ loc bytes, d'.follow f.1 = .ok (.file loc bytes) := by
    intro f hf
    obtain ⟨loc, bytes, hfollow, -⟩ := hl.written f (hsub f hf)
    exact ⟨loc, bytes, hfollow⟩
  refine ⟨Layout.contents_ofCategories cs, nodup_chapterPaths cs, map_join_chapterPaths b cs,
    fun c hc => isLinked_of_mem b hc, ?_, hfile, ?_, ?_⟩
  · intro p hp
    have hm : b.directory.join p ∈ b.directory.join Layout.homePage :: (chapterPages b cs).map (·.1) :=
      map_join_chapterPaths b cs ▸ List.mem_map_of_mem hp
    rcases List.mem_cons.1 hm with he | hm
    · rw [he]
      exact pathExists_homePage_of_write hw
    · obtain ⟨f, hf, he⟩ := List.mem_map.1 hm
      obtain ⟨loc, bytes, hfollow⟩ := hfile f hf
      rw [← he]
      exact Disk.pathExists_of_follow_file hfollow
  · intro l
    refine (hl.node l).imp_right (Or.imp_right ?_)
    rintro ⟨w, hw, hfollow⟩
    obtain ⟨p, hp, he⟩ := exists_path_of_mem_entries hw
    exact ⟨p, hp, _, he ▸ hfollow⟩
  · obtain ⟨loc, hloc⟩ := exists_leadsTo_of_write hw
    refine ⟨loc, hloc, fun hno f hf => ?_⟩
    obtain ⟨e, he, rfl⟩ := List.mem_map.1 (hsub f hf)
    have hkeys := keys_entries_sublist b (Layout.ofCategories cs) stats home
    have hpages := (Plan.keys_pages_sublist (entries b (Layout.ofCategories cs) stats home)).trans hkeys
    have hnames : ∀ f ∈ (entries b (Layout.ofCategories cs) stats home).pages,
        Path.AreNames f.1 := fun f hf =>
      (rooted_plan b cs stats).areNames (by simp) f.1 (hpages.subset (List.mem_map_of_mem hf))
    exact hl.readText (hpages.nodup (nodup_keys_plan b (Layout.wellNamed_ofCategories cs) stats))
      hnames hloc (hl.grows.noLinkBelow hno) he

end Run

/-! ## Two modules -/

/-- Two modules of one sub-category. -/
def pair : List Category := [⟨"general", [⟨"general", ["alpha", "beta"].map bareModule⟩]⟩]

theorem not_link_shelf (loc : Location) (target : Path) : shelf.node? loc ≠ some (.link target) := by
  intro h
  by_cases hl : loc = []
  · simp [Disk.node?, hl] at h
  · by_cases ho : loc = ["out".toList]
    · simp [Disk.node?, shelf, ho] at h
    · have hb : (loc == ["out".toList]) = false := by simpa using ho
      rw [Disk.node?, if_neg hl, shelf, List.lookup_cons, hb] at h
      simp at h

theorem write_chapters_pair :
    ∃ d' r, write shelf shelfBook pair {} = (d', .ok r) ∧ ChaptersAgree shelf d' shelfBook pair ∧
      ∀ f ∈ chapterPages shelfBook pair, d'.readText f.1 = .ok f.2 := by
  have hs : ¬(plan shelfBook (Layout.ofCategories pair) {}).HasLongName := by
    unfold Plan.HasLongName
    decide +kernel
  obtain ⟨hl, -⟩ | ⟨hw, -⟩ := write_emptyDirectory isEmptyDirectory_shelf pair {}
  · exact absurd hl hs
  · have h := write_chapters hw
    obtain ⟨loc, -, hr⟩ := h.readable
    exact ⟨_, _, hw, h, hr fun rel _ target => not_link_shelf _ target⟩

/-- A directory in which the page of the first module is a link to that of the second. -/
def linkedShelf : Disk :=
  let general := ["out".toList, "chapters".toList, "general".toList]
  { nodes :=
      [(general.take 1, .directory), (general.take 2, .directory), (general, .directory),
       (general ++ ["general".toList], .directory),
       (general ++ ["general".toList, "alpha.qmd".toList], .link "beta.qmd")] }

/-- The actions for the chapters of `pair` with pages that say anything. -/
def pairActions (t₁ t₂ t₃ t₄ : Text) : List Action :=
  [.makeDirectories "out/chapters", .makeDirectories "out/chapters/general",
   .write "out/chapters/general/index.qmd" t₁,
   .makeDirectories "out/chapters/general/general",
   .write "out/chapters/general/general/index.qmd" t₂,
   .write "out/chapters/general/general/alpha.qmd" t₃,
   .write "out/chapters/general/general/beta.qmd" t₄]

theorem chapterActions_pair : chapterActions shelfBook (Layout.ofCategories pair) =
    pairActions
      (Page.ofSection "general" [] [{ name := "general", href := "general/index.qmd" }])
      (Page.ofSection "general"
        [{ name := "alpha", href := "alpha.qmd" }, { name := "beta", href := "beta.qmd" }] [])
      (Page.ofModule (bareModule "alpha")) (Page.ofModule (bareModule "beta")) := by
  decide +kernel

/-- What these actions leave of `linkedShelf`. The text for `alpha` is gone. -/
def pairedShelf (t₁ t₂ t₄ : Text) : Disk :=
  let general := ["out".toList, "chapters".toList, "general".toList]
  { nodes :=
      [(general ++ ["general".toList, "beta.qmd".toList], .file (Disk.encode t₄)),
       (general ++ ["general".toList, "index.qmd".toList], .file (Disk.encode t₂)),
       (general ++ ["index.qmd".toList], .file (Disk.encode t₁))] ++ linkedShelf.nodes }

/-- The page that is written last is read at the path of the one before. -/
theorem runAll_linkedShelf (t₁ t₂ t₃ t₄ t₅ t₆ : Text) :
    ∃ d₁ d₂, Action.runAll linkedShelf (pairActions t₁ t₂ t₃ t₄) = (d₁, none) ∧
      d₁.pathExists "out/index.md" = false ∧
      Action.runAll d₁ [.write "out/index.md" t₅, .write "out/_quarto.yml" t₆] = (d₂, none) ∧
      d₂.follow "out/chapters/general/general/alpha.qmd" =
        .ok (.file ["out".toList, "chapters".toList, "general".toList, "general".toList,
          "beta.qmd".toList] (Disk.encode t₄)) :=
  ⟨pairedShelf t₁ t₂ t₄, _, Action.runAll_of_within 9 rfl,
    Disk.pathExists_of_follow_missing (Disk.follow_of_within 9 rfl), Action.runAll_of_within 9 rfl,
    Disk.follow_of_within 9 rfl⟩

/-- A link in the directory of a book may cost a page: the page of `alpha` is not in the file that the
link on the page of its sub-category leads to. -/
theorem page_behind_link_is_lost :
    ¬∀ (d d' : Disk) (b : BookSettings) (cs : List Category) (stats : Stats) (r : Report),
      write d b cs stats = (d', .ok r) → ∀ f ∈ chapterPages b cs, d'.readText f.1 = .ok f.2 := by
  intro h
  obtain ⟨d₁, d₂, h₁, hfresh, h₂, hfollow⟩ := runAll_linkedShelf _ _ _ _
    (Page.ofHome "Book" none {}) (projectText shelfBook (Layout.ofCategories pair).chapters)
  rw [← chapterActions_pair] at h₁
  have hw : write linkedShelf shelfBook pair {} = (d₂, .ok (report pair true)) := by
    have hhome : d₁.pathExists (shelfBook.directory.join Layout.homePage) = false := hfresh
    exact write_ok_iff.2 ⟨d₁, true, h₁, by rw [hhome]; rfl, rfl, h₂⟩
  have hm : ("out/chapters/general/general/alpha.qmd".toList, Page.ofModule (bareModule "alpha")) ∈
      chapterPages shelfBook pair := by
    rw [chapterPages, chapterActions_pair]
    simp [pairActions, Action.writes, Action.written?]
  have ha := h _ _ _ _ _ _ hw _ hm
  rw [Disk.readText_of_follow_file hfollow, Except.ok.injEq] at ha
  revert ha
  decide +kernel

end Book

end Bookbinder
