import Bookbinder.Proofs.Analysis.Runs
import Bookbinder.Proofs.Book.HomePage
import Bookbinder.Proofs.Module.Grouping

/-!
# Counts

The counts of an analysis agree with the sources that were found and with the modules it holds, and the
report of a book that is written from it agrees with both (`Analyzer.counts_agree`). The pages in a
report are those that the run writes, since a step counts a page if and only if it writes one
(`Book.length_chapterPages`). Whether the home page is among them depends on the disk
(`Book.HomeWritten`).
-/

namespace Bookbinder

/-! ## Paths of sources -/

theorem sourcePath_ne_root (root : Location) {names : List Text} (hne : names ≠ [])
    (h : ∀ n ∈ names, Path.IsName n) : sourcePath root names ≠ sourcePath root [] := by
  intro he
  have he := (List.cons.inj he).2
  rw [List.append_nil] at he
  have hlen := congrArg List.length he
  by_cases hr : root = []
  · obtain ⟨n, names, rfl⟩ := List.exists_cons_of_ne_nil hne
    obtain ⟨x, n, rfl⟩ := List.exists_cons_of_ne_nil (h n (by simp)).ne_nil
    subst hr
    cases names <;> simp [joinWith] at hlen
  · rw [joinWith_append _ hr hne] at hlen
    simp at hlen

/-- A source is known by its names. -/
theorem sourcePath_inj {root : Location} {names names' : List Text}
    (h : ∀ n ∈ names, Path.IsName n) (h' : ∀ n ∈ names', Path.IsName n)
    (he : sourcePath root names = sourcePath root names') : names = names' := by
  by_cases hn : names = []
  · subst hn
    by_cases hn' : names' = []
    · exact hn'.symm
    · exact absurd he.symm (sourcePath_ne_root root hn' h')
  by_cases hn' : names' = []
  · subst hn'
    exact absurd he (sourcePath_ne_root root hn h)
  have he := (List.cons.inj he).2
  by_cases hr : root = []
  · subst hr
    exact Path.AreNames.joinWith_inj ⟨hn, h⟩ ⟨hn', h'⟩ he
  · rw [joinWith_append _ hr hn, joinWith_append _ hr hn'] at he
    exact Path.AreNames.joinWith_inj ⟨hn, h⟩ ⟨hn', h'⟩ (List.append_cancel_left he)

/-! ## The pages of a report -/

namespace Book

/-- The step counts a page if and only if it writes one. -/
def Step.CountsItsPage (s : Step) : Prop := s.counts.pages = (Action.writes [s.action]).length

theorem Step.pages_counted {ss : List Step} (h : ∀ s ∈ ss, s.CountsItsPage) :
    (counted ss).pages = (Action.writes (ss.map (·.action))).length := by
  induction ss with
  | nil => rfl
  | cons s ss ih =>
    obtain ⟨hs, hss⟩ := List.forall_mem_cons.1 h
    have hsplit : (s :: ss).map (·.action) = [s.action] ++ ss.map (·.action) := rfl
    rw [hsplit, Action.writes_append, List.length_append, ← hs, ← ih hss]
    rfl

theorem countsItsPage_chapterSteps {b : BookSettings} {l : Layout} {s : Step}
    (h : s ∈ chapterSteps b l) : s.CountsItsPage := by
  simp only [chapterSteps, categorySteps, subCategorySteps, moduleSteps, List.mem_cons,
    List.mem_flatMap, List.mem_map] at h
  rcases h with rfl | ⟨c, -, rfl | rfl | ⟨sub, -, rfl | rfl | ⟨m, -, rfl⟩⟩⟩ <;> rfl

theorem length_chapterPages (b : BookSettings) (cs : List Category) :
    (chapterPages b cs).length = (report cs false).pages := by
  rw [chapterPages, chapterActions, ← Step.pages_counted fun s hs => countsItsPage_chapterSteps hs,
    counted_chapterSteps]

end Book

/-! ## The counts of an analysis -/

namespace Analysis

/-- The modules of an analysis. -/
def modules (R : Analysis) : List ModuleDoc := R.categories.flatMap Category.modules

/-- The counts agree with the number of sources that were found and with the modules. -/
structure CountsAgree (R : Analysis) (found : Nat) : Prop where
  found : R.stats.files + R.unreadable.length = found
  files : R.stats.files = R.modules.length
  comments : R.stats.comments = total (R.modules.map (·.entries.length))
  documented : R.stats.documented ≤ R.stats.comments

theorem modules_ofOutcomes_perm (root : Location) (outcomes : List SourceOutcome) :
    (ofOutcomes root outcomes).modules.Perm (outcomes.filterMap (·.2.toOption)) :=
  modules_groupModules _

/-- Every source is a module or could not be read. -/
theorem length_ofOutcomes (root : Location) (outcomes : List SourceOutcome) :
    (ofOutcomes root outcomes).stats.files + (ofOutcomes root outcomes).unreadable.length =
      outcomes.length := by
  simp only [ofOutcomes, Stats.ofModules, Except.toOption]
  induction outcomes with
  | nil => rfl
  | cons o outcomes ih =>
    obtain ⟨path, e | m⟩ := o
    · simp only [List.filterMap_cons, List.length_cons]
      omega
    · simp only [List.filterMap_cons, List.length_cons]
      omega

theorem unreadable_ofOutcomes_sublist (root : Location) (outcomes : List SourceOutcome) :
    ((ofOutcomes root outcomes).unreadable.map (·.1)).Sublist (outcomes.map (·.1)) := by
  simp only [ofOutcomes]
  induction outcomes with
  | nil => exact .slnil
  | cons o outcomes ih =>
    obtain ⟨path, e | m⟩ := o
    · exact ih.cons_cons path
    · exact ih.cons path

/-- The entries of modules document a construct or do not. -/
theorem total_documented (ms : List ModuleDoc) :
    total (ms.map (·.documented.length)) +
        total (ms.map fun m => (m.entries.filter (!·.link.isDocumented)).length) =
      total (ms.map (·.entries.length)) := by
  induction ms with
  | nil => rfl
  | cons m ms ih =>
    have hm := List.length_eq_length_filter_add (l := m.entries) (·.link.isDocumented)
    simp only [List.map_cons, total_cons, ModuleDoc.documented] at ih ⊢
    omega

theorem countsAgree_ofOutcomes (root : Location) (outcomes : List SourceOutcome) :
    (ofOutcomes root outcomes).CountsAgree outcomes.length := by
  have hm := modules_ofOutcomes_perm root outcomes
  refine ⟨length_ofOutcomes root outcomes, hm.length_eq.symm, ?_, ?_⟩
  · exact (total_groupModules _ _).symm
  · have := total_documented (outcomes.filterMap (·.2.toOption))
    simp only [ofOutcomes, Stats.ofModules]
    omega

end Analysis

/-! ## The report of a book -/

namespace Book

/-- The report of a book agrees with the analysis that it was written from; `home` tells whether the home
page was written. -/
structure ReportAgrees (b : BookSettings) (R : Analysis) (r : Report) (home : Bool) : Prop where
  modules : r.modules = R.stats.files
  entries : r.entries = R.stats.documented
  skipped : r.skipped = R.stats.undocumented
  pages : r.pages = R.categories.length + total (R.categories.map (·.subCategories.length)) +
    R.modules.length + if home then 1 else 0
  /-- The pages are those that were written. -/
  written : r.pages = (chapterPages b R.categories).length + if home then 1 else 0

theorem reportAgrees (b : BookSettings) (root : Location) (outcomes : List SourceOutcome)
    (home : Bool) : ReportAgrees b (.ofOutcomes root outcomes)
      (report (Analysis.ofOutcomes root outcomes).categories home) home := by
  have hm := Analysis.modules_ofOutcomes_perm root outcomes
  refine ⟨hm.length_eq, total_groupModules _ _, ?_, rfl, ?_⟩
  · have hd := Analysis.total_documented (outcomes.filterMap (·.2.toOption))
    have hs : (report (Analysis.ofOutcomes root outcomes).categories home).skipped =
        total ((outcomes.filterMap (·.2.toOption)).map
          fun m => (m.entries.filter (!·.link.isDocumented)).length) := total_groupModules _ _
    rw [hs, Stats.undocumented]
    simp only [Analysis.ofOutcomes, Stats.ofModules]
    omega
  · rw [length_chapterPages]
    rfl

end Book

theorem exists_of_map_eq_ok {ε α β : Type} {e : Except ε α} {f : α → β} {b : β}
    (h : e.map f = .ok b) : ∃ a, e = .ok a ∧ f a = b := by
  cases e with
  | error _ => cases h
  | ok a => exact ⟨a, rfl, Except.ok.inj h⟩

namespace Analyzer

theorem analyze_ok {a : Analyzer} {d : Disk} {p : Path} {R : Analysis} (h : a.analyze d p = .ok R) :
    ∃ root, d.canonical p = .ok root ∧
      R = .ofOutcomes root ((a.filter.discover d root).map (a.outcome d root)) := by
  cases hp : d.canonical p with
  | error e =>
    rw [analyze_of_canonical_error hp] at h
    simp at h
  | ok root =>
    rw [analyze_of_canonical_ok hp] at h
    split at h
    · simp at h
    · cases h
      exact ⟨root, rfl, analyzeSources_eq ..⟩

/-- On a tree every source is found once. -/
theorem nodup_discover {d : Disk} (ht : d.IsTree) (f : Filter) (root : Location) :
    (f.discover d root).Nodup := by
  rw [Filter.discover, (List.mergeSort_perm _ _).nodup_iff]
  exact (ht.nodup_files root).filter _

theorem isName_of_mem_discover {d : Disk} (ht : d.IsTree) {f : Filter} {root : Location}
    {names : List Text} (h : names ∈ f.discover d root) : ∀ n ∈ names, Path.IsName n := by
  rw [Filter.discover, List.mem_mergeSort, List.mem_filter] at h
  exact ht.isName_of_mem_files h.1

/-- Counts do not drift between an analysis, its modules and the book that is written from it. -/
theorem counts_agree {a : Analyzer} {d : Disk} {p : Path} {R : Analysis}
    (h : a.analyze d p = .ok R) :
    (∃ root, d.canonical p = .ok root ∧ R.CountsAgree (a.filter.discover d root).length ∧
      (d.IsTree → (R.unreadable.map (·.1)).Nodup)) ∧
    ∀ d₀ b d' r, Book.write d₀ b R.categories R.stats = (d', .ok r) →
      ∃ home, Book.ReportAgrees b R r home ∧ Book.HomeWritten d₀ b R.categories d' home := by
  obtain ⟨root, hp, rfl⟩ := analyze_ok h
  refine ⟨⟨root, hp, ?_, fun ht => ?_⟩, fun d₀ b d' r hw => ?_⟩
  · have hc := Analysis.countsAgree_ofOutcomes root ((a.filter.discover d root).map (a.outcome d root))
    rwa [List.length_map] at hc
  · refine (Analysis.unreadable_ofOutcomes_sublist root _).nodup ?_
    rw [List.map_map]
    refine (nodup_discover ht a.filter root).map_on fun names hn names' hn' he => ?_
    exact sourcePath_inj (isName_of_mem_discover ht hn) (isName_of_mem_discover ht hn') he
  · obtain ⟨home, rfl, hhome⟩ := Book.write_homeWritten hw
    exact ⟨home, Book.reportAgrees b root _ home, hhome⟩

/-! ## A project with one source -/

/-- One source, and a directory for the book in which the home page is a link to a page that is still to
be written. -/
def linkedHome : Disk :=
  { nodes :=
      [(["a.js".toList], .file (Disk.encode [])), (["out".toList], .directory),
       (["out".toList, "index.md".toList], .link "chapters/general/index.qmd")] }

def soloModule : ModuleDoc := ⟨⟨"a", [], "a.js", "general", "general"⟩, []⟩

def soloCategories : List Category := [⟨"general", [⟨"general", [soloModule]⟩]⟩]

theorem document_linkedHome :
    takesAll.document linkedHome [] ["a.js".toList] = .ok soloModule := by
  have hf : linkedHome.follow "/a.js" = .ok (.file ["a.js".toList] (Disk.encode [])) :=
    Disk.follow_of_within 9 rfl
  have hr : linkedHome.readText (sourcePath [] ["a.js".toList]) = .ok [] :=
    Disk.readText_of_follow_file hf
  rw [document, linkFile, hr]
  decide +kernel

/-- The link leads nowhere and is passed over. -/
theorem files_linkedHome : linkedHome.files [] = [["a.js".toList]] := by
  have hlink : linkedHome.followFrom Disk.maxLinks [] ["out".toList, "index.md".toList] =
      .error .notFound := Disk.followFrom_of_within 9 rfl
  have hchildren : linkedHome.children ["out".toList] =
      [("index.md".toList, .link "chapters/general/index.qmd")] := rfl
  have hout : linkedHome.filesFrom [] 15 [[]] ["out".toList] ["out".toList] = [] := by
    rw [Disk.filesFrom, hchildren, List.flatMap_singleton]
    dsimp only
    rw [List.nil_append, List.singleton_append, hlink]
  show [["a.js".toList]] ++ (linkedHome.filesFrom [] 15 [[]] ["out".toList] ["out".toList] ++ []) = _
  rw [hout]
  rfl

theorem analyze_linkedHome : takesAll.analyze linkedHome ['/'] =
    .ok { root := ['/'], categories := soloCategories, unreadable := [], stats := { files := 1 } } := by
  have hp : linkedHome.canonical ['/'] = .ok [] := Disk.canonical_root _
  have hs : takesAll.filter.discover linkedHome [] = [["a.js".toList]] :=
    Filter.discover_eq_of_perm (by rw [files_linkedHome]; decide +kernel) (by decide)
  have hg : groupModules [soloModule] = soloCategories := by decide +kernel
  rw [analyze_of_canonical_ok hp, hs, if_neg (by simp), analyzeSources_eq, List.map_singleton, outcome,
    document_linkedHome]
  simp only [Analysis.ofOutcomes, List.filterMap_cons, List.filterMap_nil, Except.toOption, hg]
  rfl

theorem isTree_shelf : Book.shelf.IsTree where
  nodup := by decide
  entry := by
    intro e he
    obtain rfl := List.mem_singleton.1 he
    exact ⟨[], "out".toList, rfl, by constructor <;> decide, rfl⟩

theorem counts_agree_solo :
    ∃ R, takesAll.analyze linkedHome ['/'] = .ok R ∧
      (∃ root, linkedHome.canonical ['/'] = .ok root ∧
        R.CountsAgree (takesAll.filter.discover linkedHome root).length) ∧
      ∃ d' r, Book.write Book.shelf Book.shelfBook R.categories R.stats = (d', .ok r) ∧
        Book.ReportAgrees Book.shelfBook R r true := by
  have hs : ¬(Book.plan Book.shelfBook (Layout.ofCategories soloCategories)
      { files := 1 }).HasLongName := by
    unfold Plan.HasLongName
    decide +kernel
  obtain ⟨hl, -⟩ | ⟨hw, -⟩ :=
    Book.write_emptyDirectory Book.isEmptyDirectory_shelf soloCategories { files := 1 }
  · exact absurd hl hs
  obtain ⟨⟨root, hp, hc, -⟩, hr⟩ := counts_agree analyze_linkedHome
  obtain ⟨home, hagree, hhome⟩ := hr _ _ _ _ hw
  obtain ⟨loc, hloc⟩ := Book.exists_leadsTo_of_write hw
  have habsent : Book.shelf.pathExists (Book.shelfBook.directory.join Layout.homePage) = false :=
    Disk.pathExists_of_follow_missing (Disk.follow_of_within 9 rfl)
  have hplain : Book.IsPlainDirectory Book.shelf Book.shelfBook.directory :=
    .inl ⟨_, Book.isEmptyDirectory_shelf.leadsTo⟩
  obtain rfl := hhome.made loc hloc isTree_shelf hplain
    (fun rel _ target => Book.not_link_shelf _ target) habsent
  exact ⟨_, analyze_linkedHome, ⟨root, hp, hc⟩, _, _, hw, hagree⟩

/-- The actions for the chapters of `soloCategories` with pages that say anything. -/
def soloActions (t₁ t₂ t₃ : Text) : List Action :=
  [.makeDirectories "out/chapters", .makeDirectories "out/chapters/general",
   .write "out/chapters/general/index.qmd" t₁,
   .makeDirectories "out/chapters/general/general",
   .write "out/chapters/general/general/index.qmd" t₂,
   .write "out/chapters/general/general/a.qmd" t₃]

theorem chapterActions_solo :
    Book.chapterActions Book.shelfBook (Layout.ofCategories soloCategories) =
      soloActions
        (Page.ofSection "general" [] [{ name := "general", href := "general/index.qmd" }])
        (Page.ofSection "general" [{ name := "a", href := "a.qmd" }] [])
        (Page.ofModule soloModule) := by
  decide +kernel

/-- The page that is written for the category turns up as the home page. -/
theorem runAll_linkedHome (t₁ t₂ t₃ t₄ : Text) :
    ∃ d₁ d₂, Action.runAll linkedHome (soloActions t₁ t₂ t₃) = (d₁, none) ∧
      d₁.pathExists "out/index.md" = true ∧
      Action.runAll d₁ [.write "out/_quarto.yml" t₄] = (d₂, none) :=
  ⟨_, _, Action.runAll_of_within 9 rfl, Disk.pathExists_of_follow_file (Disk.follow_of_within 9 rfl),
    Action.runAll_of_within 9 rfl⟩

/-- A home page that was not there before the run need not be among the pages of the report: writing the
chapters may make it. -/
theorem home_page_made_by_chapters :
    ¬∀ (a : Analyzer) (d : Disk) (p : Path) (R : Analysis), a.analyze d p = .ok R →
      ∀ (b : BookSettings) (d' : Disk) (r : Report),
        Book.write d b R.categories R.stats = (d', .ok r) →
        r.pages = R.categories.length + total (R.categories.map (·.subCategories.length)) +
          R.modules.length + if d.pathExists (b.directory.join Layout.homePage) then 0 else 1 := by
  intro h
  obtain ⟨d₁, d₂, h₁, hhome, h₂⟩ := runAll_linkedHome _ _ _
    (projectText Book.shelfBook (Layout.ofCategories soloCategories).chapters)
  rw [← chapterActions_solo] at h₁
  have hw : Book.write linkedHome Book.shelfBook soloCategories { files := 1 } =
      (d₂, .ok (Book.report soloCategories false)) := by
    have hhome : d₁.pathExists (Book.shelfBook.directory.join Layout.homePage) = true := hhome
    exact Book.write_ok_iff.2 ⟨d₁, false, h₁, by rw [hhome]; rfl, rfl, h₂⟩
  have hdead : linkedHome.follow (Book.shelfBook.directory.join Layout.homePage) = .error .notFound :=
    Disk.follow_of_within 9 rfl
  have habsent : linkedHome.pathExists (Book.shelfBook.directory.join Layout.homePage) = false := by
    rw [Disk.pathExists, hdead]
  have hpages := h _ _ _ _ analyze_linkedHome _ _ _ hw
  rw [habsent] at hpages
  revert hpages
  decide

end Analyzer

end Bookbinder
