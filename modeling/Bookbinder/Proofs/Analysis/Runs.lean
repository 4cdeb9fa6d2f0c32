import Bookbinder.Analysis.Basic
import Bookbinder.Book.Layout
import Bookbinder.Proofs.Disk.Evaluation
import Bookbinder.Proofs.Disk.Tree
import Bookbinder.Proofs.Text.Order

/-!
# The runs of an analysis

A walk may yield the files of a project in any order, and the workers that document the sources may
finish in any order; each puts its outcome into the slot of its source. `Analyzer.MayAnswer` lists the
answers of all such runs. There is exactly one (`mayAnswer_iff`), so neither the order in which a disk
lists its nodes nor that of the workers shows in an analysis, nor in the names that a layout makes of
it (`analysis_unique`).
-/

namespace Bookbinder

/-! ## Workers -/

section Workers

variable {α β : Type} {work : α → β} {jobs : List α} {slots slots' : List (Option β)}

/-- One worker finishes one job: the result goes into the slot of the job. -/
inductive Finishes (work : α → β) (jobs : List α) : List (Option β) → List (Option β) → Prop
  | job {slots : List (Option β)} {i : Nat} {job : α} (hj : jobs[i]? = some job)
      (hs : slots[i]? = some none) : Finishes work jobs slots (slots.set i (some (work job)))

/-- The results that are collected when all jobs are finished, in whatever order. -/
def Collects (work : α → β) (jobs : List α) (results : List β) : Prop :=
  Relation.ReflTransGen (Finishes work jobs) (List.replicate jobs.length none) (results.map some)

/-- Each slot is empty or holds the result of its job. -/
structure AreSlots (work : α → β) (jobs : List α) (slots : List (Option β)) : Prop where
  length : slots.length = jobs.length
  slot : ∀ {i : Nat} {job : α}, jobs[i]? = some job →
    slots[i]? = some none ∨ slots[i]? = some (some (work job))

theorem areSlots_replicate (work : α → β) (jobs : List α) :
    AreSlots work jobs (List.replicate jobs.length none) where
  length := List.length_replicate
  slot h := by
    have hi := (List.getElem?_eq_some_iff.1 h).1
    exact .inl (by simp [hi])

theorem Finishes.areSlots (h : Finishes work jobs slots slots') (hs : AreSlots work jobs slots) :
    AreSlots work jobs slots' := by
  obtain ⟨hj, hn⟩ := h
  rename_i i job
  have hi : i < slots.length := (List.getElem?_eq_some_iff.1 hn).1
  refine ⟨by rw [List.length_set, hs.length], fun {k job'} hk => ?_⟩
  by_cases he : i = k
  · subst he
    rw [hj, Option.some.injEq] at hk
    exact .inr (by rw [List.getElem?_set_self hi, hk])
  · rw [List.getElem?_set_ne he]
    exact hs.slot hk

theorem areSlots_of_run (h : Relation.ReflTransGen (Finishes work jobs) slots slots')
    (hs : AreSlots work jobs slots) : AreSlots work jobs slots' := by
  induction h with
  | refl => exact hs
  | tail _ hstep ih => exact hstep.areSlots ih

/-- Full slots hold the results of the jobs in order. -/
theorem AreSlots.eq_map {results : List β} (h : AreSlots work jobs (results.map some)) :
    results = jobs.map work := by
  refine List.ext_getElem? fun i => ?_
  have hlen : results.length = jobs.length := by simpa using h.length
  rw [List.getElem?_map]
  cases hj : jobs[i]? with
  | none => rwa [Option.map_none, List.getElem?_eq_none_iff, hlen, ← List.getElem?_eq_none_iff]
  | some job =>
    rcases h.slot hj with hs | hs
    · simp at hs
    · simpa using hs

/-- The jobs may be finished one after the other. -/
theorem run_in_order (work : α → β) (done todo : List α) :
    Relation.ReflTransGen (Finishes work (done ++ todo))
      ((done.map work).map some ++ List.replicate todo.length none)
      (((done ++ todo).map work).map some) := by
  induction todo generalizing done with
  | nil => simpa using Relation.ReflTransGen.refl
  | cons job todo ih =>
    have hstep : Finishes work (done ++ job :: todo)
        ((done.map work).map some ++ none :: List.replicate todo.length none)
        ((((done ++ [job]).map work).map some) ++ List.replicate todo.length none) := by
      have hj : (done ++ job :: todo)[done.length]? = some job := by simp
      have hs : ((done.map work).map some ++ none :: List.replicate todo.length none)[done.length]? =
          some none := by simp
      have hstep : Finishes work (done ++ job :: todo) _ _ := .job hj hs
      simpa using hstep
    have hrest := ih (done ++ [job])
    rw [List.append_assoc, List.singleton_append] at hrest
    exact .head hstep hrest

/-- Whatever order the workers finish in, the results come out in the order of the jobs. -/
theorem collects_iff {results : List β} : Collects work jobs results ↔ results = jobs.map work := by
  constructor
  · exact fun h => (areSlots_of_run h (areSlots_replicate work jobs)).eq_map
  · rintro rfl
    exact run_in_order work [] jobs

end Workers

/-! ## Sources -/

/-- The sources among the files that a walk has yielded, in order. -/
def Filter.sourcesOf (f : Filter) (root : Location) (walk : List (List Text)) : List (List Text) :=
  (walk.filter (f.isSource root)).mergeSort (lexLe textLe)

theorem Filter.discover_eq (f : Filter) (d : Disk) (root : Location) :
    f.discover d root = f.sourcesOf root (d.files root) := rfl

/-- The order of a walk does not show in the sources. -/
theorem Filter.sourcesOf_eq (f : Filter) (root : Location) {walk walk' : List (List Text)}
    (h : walk.Perm walk') : f.sourcesOf root walk = f.sourcesOf root walk' :=
  (isOrdering_lexLe isOrdering_textLe).mergeSort_eq (h.filter _)

/-- Discovery finds the sources that a walk yields, whatever their order there. -/
theorem Filter.discover_eq_of_perm {f : Filter} {d : Disk} {root : Location} {l : List (List Text)}
    (h : ((d.files root).filter (f.isSource root)).Perm l)
    (hl : l.Pairwise fun a b => lexLe textLe a b) : f.discover d root = l := by
  rw [discover, (isOrdering_lexLe isOrdering_textLe).mergeSort_eq h]
  exact List.mergeSort_of_pairwise hl

/-! ## Runs -/

/-- What becomes of one source. -/
abbrev SourceOutcome := Path × Except Failure ModuleDoc

/-- The analysis that the outcomes of the sources add up to. -/
def Analysis.ofOutcomes (root : Location) (outcomes : List SourceOutcome) : Analysis :=
  { root := root.path
    categories := groupModules (outcomes.filterMap (·.2.toOption))
    unreadable := outcomes.filterMap fun o =>
      match o.2 with
      | .ok _ => none
      | .error e => some (o.1, e)
    stats := .ofModules (outcomes.filterMap (·.2.toOption)) }

namespace Analyzer

/-- The outcome of a source. -/
def outcome (a : Analyzer) (d : Disk) (root : Location) (names : List Text) : SourceOutcome :=
  (sourcePath root names, a.document d root names)

theorem analyzeSources_eq (a : Analyzer) (d : Disk) (root : Location) (sources : List (List Text)) :
    a.analyzeSources d root sources = .ofOutcomes root (sources.map (a.outcome d root)) := rfl

/-- The answers of an analysis of the project at a path, for every order `walk` in which the files are
yielded and every order in which the workers finish the sources. -/
inductive MayAnswer (a : Analyzer) (d : Disk) (p : Path) : Except Failure Analysis → Prop
  | notFound {e : DiskError} (hp : d.canonical p = .error e) : MayAnswer a d p (.error (.notFound p))
  | noSources {root : Location} {walk : List (List Text)} (hp : d.canonical p = .ok root)
      (hw : walk.Perm (d.files root)) (hs : a.filter.sourcesOf root walk = []) :
      MayAnswer a d p (.error (.noSources root.path))
  | analysed {root : Location} {walk : List (List Text)} {outcomes : List SourceOutcome}
      (hp : d.canonical p = .ok root) (hw : walk.Perm (d.files root))
      (hs : a.filter.sourcesOf root walk ≠ [])
      (hc : Collects (a.outcome d root) (a.filter.sourcesOf root walk) outcomes) :
      MayAnswer a d p (.ok (.ofOutcomes root outcomes))

section Runs

variable {a : Analyzer} {d d' : Disk} {p : Path} {r : Except Failure Analysis}

theorem analyze_of_canonical_error {e : DiskError} (hp : d.canonical p = .error e) :
    a.analyze d p = .error (.notFound p) := by
  rw [analyze, hp]

theorem analyze_of_canonical_ok {root : Location} (hp : d.canonical p = .ok root) :
    a.analyze d p =
      if a.filter.discover d root = [] then .error (.noSources root.path)
      else .ok (a.analyzeSources d root (a.filter.discover d root)) := by
  rw [analyze, hp]
  cases hs : a.filter.discover d root with
  | nil => simp only [hs, if_pos]
  | cons source sources => simp only [hs, reduceCtorEq, if_false]

/-- Every run gives the answer of the analysis. -/
theorem MayAnswer.eq_analyze (h : a.MayAnswer d p r) : r = a.analyze d p := by
  cases h with
  | notFound hp => rw [analyze_of_canonical_error hp]
  | noSources hp hw hs =>
    rw [a.filter.sourcesOf_eq _ hw, ← Filter.discover_eq] at hs
    rw [analyze_of_canonical_ok hp, if_pos hs]
  | analysed hp hw hs hc =>
    rw [a.filter.sourcesOf_eq _ hw, ← Filter.discover_eq] at hs hc
    rw [analyze_of_canonical_ok hp, if_neg hs, analyzeSources_eq, collects_iff.1 hc]

/-- There is a run that gives the answer of the analysis. -/
theorem mayAnswer_analyze (a : Analyzer) (d : Disk) (p : Path) : a.MayAnswer d p (a.analyze d p) := by
  cases hp : d.canonical p with
  | error e =>
    rw [analyze_of_canonical_error hp]
    exact .notFound hp
  | ok root =>
    rw [analyze_of_canonical_ok hp]
    by_cases hs : a.filter.discover d root = []
    · rw [if_pos hs]
      exact .noSources hp (.refl _) hs
    · rw [if_neg hs, analyzeSources_eq]
      exact .analysed hp (.refl _) hs (collects_iff.2 rfl)

theorem mayAnswer_iff : a.MayAnswer d p r ↔ r = a.analyze d p :=
  ⟨MayAnswer.eq_analyze, fun h => h ▸ mayAnswer_analyze a d p⟩

/-! ## Disks that list the same nodes -/

theorem outcome_eq (h : d.SameNodes d') (a : Analyzer) (root : Location) :
    a.outcome d' root = a.outcome d root := by
  funext names
  rw [outcome, outcome, document, document, linkFile, linkFile, h.readText_eq]

theorem discover_eq (h : d.SameNodes d') (f : Filter) (root : Location) :
    f.discover d' root = f.discover d root := by
  rw [Filter.discover_eq, Filter.discover_eq, f.sourcesOf_eq root (h.files_perm root)]

theorem analyze_eq (h : d.SameNodes d') (a : Analyzer) (p : Path) :
    a.analyze d' p = a.analyze d p := by
  cases hp : d.canonical p with
  | error e =>
    rw [analyze_of_canonical_error hp, analyze_of_canonical_error ((h.canonical_eq p).trans hp)]
  | ok root =>
    rw [analyze_of_canonical_ok hp, analyze_of_canonical_ok ((h.canonical_eq p).trans hp),
      discover_eq h, analyzeSources_eq, analyzeSources_eq, outcome_eq h]

/-- An analysis does not depend on the order in which a disk lists its nodes, a walk yields files or
workers finish: there is an answer, and any two runs give the same one, with the same modules in the
same order, the same unreadable sources and the same counts. So the layouts of two runs are the same
too, with all names of directories and files. -/
theorem analysis_unique (h : d.SameNodes d') (a : Analyzer) (p : Path) :
    (∃ r, a.MayAnswer d p r) ∧
    ∀ r r', a.MayAnswer d p r → a.MayAnswer d' p r' → r = r' ∧
      r.map (fun R => Layout.ofCategories R.categories) =
        r'.map (fun R => Layout.ofCategories R.categories) ∧
      r.map (fun R => (Layout.ofCategories R.categories).chapters) =
        r'.map (fun R => (Layout.ofCategories R.categories).chapters) := by
  refine ⟨⟨_, mayAnswer_analyze a d p⟩, fun r r' hr hr' => ?_⟩
  have heq : r = r' := by rw [mayAnswer_iff.1 hr, mayAnswer_iff.1 hr', analyze_eq h]
  exact ⟨heq, by rw [heq], by rw [heq]⟩

end Runs

/-! ## Two sources of one name -/

/-- Two directories with a source each; both sources name the same module. -/
def twinNodes : List (Location × Node) :=
  let source := .file (Disk.encode "/** @category core\n@subcategory api\n@module util */")
  [(["a".toList], .directory), (["a".toList, "util.js".toList], source),
   (["b".toList], .directory), (["b".toList, "util.js".toList], source)]

/-- An analyzer that takes every source. -/
def takesAll : Analyzer := ⟨{}, ⟨[⟨[.anyDirectories]⟩], []⟩⟩

theorem discover_twinNodes : takesAll.filter.discover ⟨twinNodes, []⟩ [] =
    [["a".toList, "util.js".toList], ["b".toList, "util.js".toList]] :=
  Filter.discover_eq_of_perm (by decide +kernel) (by decide)

theorem sameNodes_twinNodes : Disk.SameNodes ⟨twinNodes, []⟩ ⟨twinNodes.reverse, []⟩ where
  workDir := rfl
  nodes := (List.reverse_perm _).symm
  nodup := by decide

theorem analysis_unique_twinNodes :
    Disk.SameNodes ⟨twinNodes, []⟩ ⟨twinNodes.reverse, []⟩ ∧
    (∃ R, takesAll.MayAnswer ⟨twinNodes, []⟩ ['/'] (.ok R)) ∧
    ∀ r r', takesAll.MayAnswer ⟨twinNodes, []⟩ ['/'] r →
      takesAll.MayAnswer ⟨twinNodes.reverse, []⟩ ['/'] r' → r = r' := by
  refine ⟨sameNodes_twinNodes, ?_, ?_⟩
  · have hp : Disk.canonical ⟨twinNodes, []⟩ ['/'] = .ok [] := Disk.canonical_root _
    have h := mayAnswer_analyze takesAll ⟨twinNodes, []⟩ ['/']
    rw [analyze_of_canonical_ok hp, discover_twinNodes, if_neg (by simp)] at h
    exact ⟨_, h⟩
  · exact fun r r' hr hr' => ((analysis_unique sameNodes_twinNodes _ _).2 r r' hr hr').1

end Analyzer

end Bookbinder
