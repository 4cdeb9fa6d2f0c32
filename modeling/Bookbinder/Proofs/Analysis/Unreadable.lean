import Bookbinder.Proofs.Analysis.Counts
import Bookbinder.Proofs.Disk.Walks

/-!
# Sources that cannot be read

A source that cannot be read is reported under its path and changes nothing else
(`Analyzer.unreadable_isolated`): when nodes are added to a tree, the sources found before are found
again in the same order (`Filter.filter_discover`) with the outcomes they had (`Analyzer.outcome_of_keeps`),
and outcomes without a module do not show in the categories and counts (`Analysis.ofOutcomes_filter`).
-/

namespace Bookbinder

variable {d d' : Disk} {root : Location} {names : List Text}

/-! ## Outcomes -/

/-- The entry of a source that could not be read. -/
def SourceOutcome.failure? (o : SourceOutcome) : Option (Path × Failure) :=
  match o.2 with
  | .ok _ => none
  | .error e => some (o.1, e)

/-- Sources without a module show only among those that could not be read. -/
theorem Analysis.ofOutcomes_filter {α : Type} (root : Location) (g : α → SourceOutcome)
    {l : List α} (keep : α → Bool) (h : ∀ x ∈ l, keep x = false → (g x).2.toOption = none) :
    (ofOutcomes root (l.map g)).categories =
      (ofOutcomes root ((l.filter keep).map g)).categories ∧
    (ofOutcomes root (l.map g)).stats = (ofOutcomes root ((l.filter keep).map g)).stats ∧
    (ofOutcomes root (l.map g)).unreadable.Perm
      ((ofOutcomes root ((l.filter keep).map g)).unreadable ++
        (l.filter fun x => !keep x).filterMap fun x => (g x).failure?) := by
  have hmodules : (l.map g).filterMap (·.2.toOption) =
      ((l.filter keep).map g).filterMap (·.2.toOption) := by
    rw [List.filterMap_map, List.filterMap_map, List.filterMap_filter]
    refine List.filterMap_congr fun x hx => ?_
    cases hk : keep x with
    | true => simp
    | false => simpa using h x hx hk
  refine ⟨congrArg groupModules hmodules, congrArg Stats.ofModules hmodules, ?_⟩
  have hsplit := (List.filter_append_perm keep l).filterMap fun x => (g x).failure?
  rw [List.filterMap_append] at hsplit
  show ((l.map g).filterMap SourceOutcome.failure?).Perm
    (((l.filter keep).map g).filterMap SourceOutcome.failure? ++ _)
  rw [List.filterMap_map, List.filterMap_map]
  exact hsplit.symm

/-! ## Sources of a larger tree -/

namespace Filter

theorem discover_subset (f : Filter) (hk : d.Keeps d') (ht : d.IsTree) (ht' : d'.IsTree)
    (root : Location) : f.discover d root ⊆ f.discover d' root := by
  intro names h
  rw [discover, List.mem_mergeSort, List.mem_filter] at h ⊢
  exact ⟨hk.files_subset ht ht' root h.1, h.2⟩

/-- The sources that a larger tree has in addition. -/
def added (f : Filter) (d d' : Disk) (root : Location) : List (List Text) :=
  (f.discover d' root).filter (· ∉ f.discover d root)

/-- The others are those of the smaller tree in the order they had. -/
theorem filter_discover (f : Filter) (hk : d.Keeps d') (ht : d.IsTree) (ht' : d'.IsTree)
    (root : Location) :
    (f.discover d' root).filter (· ∈ f.discover d root) = f.discover d root := by
  have ho := isOrdering_lexLe isOrdering_textLe
  refine ho.eq_of_perm ((ho.pairwise_mergeSort _).filter _) (ho.pairwise_mergeSort _) ?_
  have hnodup := (Analyzer.nodup_discover ht' f root).filter (· ∈ f.discover d root)
  rw [List.perm_ext_iff_of_nodup hnodup (Analyzer.nodup_discover ht f root)]
  intro names
  rw [List.mem_filter, decide_eq_true_eq]
  exact ⟨And.right, fun h => ⟨f.discover_subset hk ht ht' root h, h⟩⟩

end Filter

namespace Analyzer

/-- A source has the outcome that it had before nodes were added. -/
theorem outcome_of_keeps (a : Analyzer) (hk : d.Keeps d') (ht : d.IsTree)
    (h : names ∈ a.filter.discover d root) : a.outcome d' root names = a.outcome d root names := by
  rw [Filter.discover, List.mem_mergeSort, List.mem_filter] at h
  have hread : d'.readText (sourcePath root names) = d.readText (sourcePath root names) := by
    rw [Disk.readText, Disk.readText, hk.follow_source ht h.1]
  rw [outcome, outcome, document, document, linkFile, linkFile, hread]

theorem outcome_of_readText_error (a : Analyzer) {e : DiskError}
    (h : d.readText (sourcePath root names) = .error e) :
    a.outcome d root names = (sourcePath root names, .error (.unreadable (sourcePath root names) e)) := by
  rw [outcome, document, linkFile, h]
  rfl

/-- No two unreadable sources have one path. -/
theorem nodup_unreadable (a : Analyzer) (ht : d.IsTree) (root : Location) :
    ((Analysis.ofOutcomes root ((a.filter.discover d root).map (a.outcome d root))).unreadable.map
      (·.1)).Nodup := by
  have hpaths : ((a.filter.discover d root).map (sourcePath root)).Nodup :=
    (nodup_discover ht a.filter root).map_on fun names hn names' hn' =>
      sourcePath_inj (isName_of_mem_discover ht hn) (isName_of_mem_discover ht hn')
  refine (Analysis.unreadable_ofOutcomes_sublist root _).nodup ?_
  rw [List.map_map]
  exact hpaths

theorem analyze_error_iff {a : Analyzer} {p : Path} {f : Failure} :
    a.analyze d p = .error f ↔
      (∃ e, d.canonical p = .error e ∧ f = .notFound p) ∨
        ∃ root, d.canonical p = .ok root ∧ a.filter.discover d root = [] ∧
          f = .noSources root.path := by
  constructor
  · intro h
    cases hp : d.canonical p with
    | error e =>
      rw [analyze_of_canonical_error hp] at h
      exact .inl ⟨e, rfl, (Except.error.inj h).symm⟩
    | ok root =>
      rw [analyze_of_canonical_ok hp] at h
      split at h
      · exact .inr ⟨root, rfl, ‹_›, (Except.error.inj h).symm⟩
      · cases h
  · rintro (⟨e, hp, rfl⟩ | ⟨root, hp, hs, rfl⟩)
    · exact analyze_of_canonical_error hp
    · rw [analyze_of_canonical_ok hp, if_pos hs]

/-- Sources that cannot be read as text change nothing but the list of unreadable sources, which holds
one entry more for each of them. An analysis fails only for a path that leads nowhere and for a project
without sources. -/
theorem unreadable_isolated (a : Analyzer) (p : Path) :
    (∀ d d' : Disk, d.IsTree → d'.IsTree → d.Keeps d' →
      ∀ root, d.canonical p = .ok root → a.filter.discover d root ≠ [] →
      (∀ names ∈ a.filter.added d d' root,
        d'.readText (sourcePath root names) = .error .notText) →
      ∃ R R', a.analyze d p = .ok R ∧ a.analyze d' p = .ok R' ∧
        R'.root = R.root ∧ R'.categories = R.categories ∧ R'.stats = R.stats ∧
        (R'.unreadable.map (·.1)).Nodup ∧
        R'.unreadable.Perm (R.unreadable ++ (a.filter.added d d' root).map fun names =>
          (sourcePath root names, .unreadable (sourcePath root names) .notText))) ∧
    ∀ (d : Disk) (f : Failure), a.analyze d p = .error f ↔
      (∃ e, d.canonical p = .error e ∧ f = .notFound p) ∨
        ∃ root, d.canonical p = .ok root ∧ a.filter.discover d root = [] ∧
          f = .noSources root.path := by
  refine ⟨fun d d' ht ht' hk root hp hs hbad => ?_, fun d f => analyze_error_iff⟩
  have hs' : a.filter.discover d' root ≠ [] := by
    obtain ⟨names, hn⟩ := List.exists_mem_of_ne_nil _ hs
    exact List.ne_nil_of_mem (a.filter.discover_subset hk ht ht' root hn)
  have hbad' (names : List Text) (hn : names ∈ a.filter.added d d' root) :
      a.outcome d' root names =
        (sourcePath root names, .error (.unreadable (sourcePath root names) .notText)) :=
    a.outcome_of_readText_error (hbad names hn)
  obtain ⟨hc, hst, hu⟩ := Analysis.ofOutcomes_filter root (a.outcome d' root)
    (l := a.filter.discover d' root) (· ∈ a.filter.discover d root) fun names hn hnew => by
      rw [hbad' names (List.mem_filter.2 ⟨hn, by simpa using hnew⟩)]
      rfl
  have hkept : (a.filter.discover d root).map (a.outcome d' root) =
      (a.filter.discover d root).map (a.outcome d root) :=
    List.map_congr_left fun names hn => a.outcome_of_keeps hk ht hn
  rw [a.filter.filter_discover hk ht ht', hkept] at hc hst hu
  have hR : a.analyze d p =
      .ok (.ofOutcomes root ((a.filter.discover d root).map (a.outcome d root))) := by
    rw [analyze_of_canonical_ok hp, if_neg hs, analyzeSources_eq]
  have hR' : a.analyze d' p =
      .ok (.ofOutcomes root ((a.filter.discover d' root).map (a.outcome d' root))) := by
    rw [analyze_of_canonical_ok (hk.canonical hp), if_neg hs', analyzeSources_eq]
  refine ⟨_, _, hR, hR', rfl, hc, hst, ?_, ?_⟩
  · exact a.nodup_unreadable ht' root
  · have hadded : (a.filter.added d d' root).filterMap (fun names => (a.outcome d' root names).failure?) =
        (a.filter.added d d' root).map fun names =>
          (sourcePath root names, .unreadable (sourcePath root names) .notText) := by
      rw [← List.filterMap_eq_map]
      refine List.filterMap_congr fun names hn => ?_
      rw [hbad' names hn]
      rfl
    rw [← hadded]
    simpa [Filter.added] using hu

/-! ## Bytes that are no text -/

/-- The tree of `twinNodes` with two files more that are no text, one before and one between the
others. -/
def spoiltNodes : List (Location × Node) :=
  twinNodes ++ [(["a.ts".toList], .file ⟨#[0xff]⟩), (["a".toList, "x.js".toList], .file ⟨#[0xc0]⟩)]

theorem readText_spoiltNodes :
    Disk.readText ⟨spoiltNodes, []⟩ "/a.ts" = .error .notText ∧
      Disk.readText ⟨spoiltNodes, []⟩ "/a/x.js" = .error .notText := by
  have hts : Disk.follow ⟨spoiltNodes, []⟩ "/a.ts" = .ok (.file ["a.ts".toList] ⟨#[0xff]⟩) :=
    Disk.follow_of_within 9 rfl
  have hjs : Disk.follow ⟨spoiltNodes, []⟩ "/a/x.js" =
      .ok (.file ["a".toList, "x.js".toList] ⟨#[0xc0]⟩) := Disk.follow_of_within 9 rfl
  rw [Disk.readText, Disk.readText, hts, hjs]
  exact ⟨rfl, rfl⟩

theorem added_spoiltNodes :
    takesAll.filter.added ⟨twinNodes, []⟩ ⟨spoiltNodes, []⟩ [] =
      [["a".toList, "x.js".toList], ["a.ts".toList]] := by
  have hs : takesAll.filter.discover ⟨spoiltNodes, []⟩ [] =
      [["a".toList, "util.js".toList], ["a".toList, "x.js".toList], ["a.ts".toList],
       ["b".toList, "util.js".toList]] :=
    Filter.discover_eq_of_perm (by decide +kernel) (by decide)
  rw [Filter.added, hs, discover_twinNodes]
  decide

theorem unreadable_isolated_spoiltNodes :
    Disk.IsTree ⟨twinNodes, []⟩ ∧ Disk.IsTree ⟨spoiltNodes, []⟩ ∧
    ∃ R R', takesAll.analyze ⟨twinNodes, []⟩ ['/'] = .ok R ∧
      takesAll.analyze ⟨spoiltNodes, []⟩ ['/'] = .ok R' ∧
      R'.categories = R.categories ∧ R'.stats = R.stats ∧
      R'.unreadable.Perm (R.unreadable ++
        [("/a/x.js".toList, .unreadable "/a/x.js" .notText),
         ("/a.ts".toList, .unreadable "/a.ts" .notText)]) := by
  have ht : Disk.IsTree ⟨twinNodes, []⟩ := by decide
  have ht' : Disk.IsTree ⟨spoiltNodes, []⟩ := by decide
  have hp : Disk.canonical ⟨twinNodes, []⟩ ['/'] = .ok [] := Disk.canonical_root _
  have hbad : ∀ names ∈ takesAll.filter.added ⟨twinNodes, []⟩ ⟨spoiltNodes, []⟩ [],
      Disk.readText ⟨spoiltNodes, []⟩ (sourcePath [] names) = .error .notText := by
    rw [added_spoiltNodes]
    intro names hn
    rcases List.mem_pair.1 hn with rfl | rfl
    · exact readText_spoiltNodes.2
    · exact readText_spoiltNodes.1
  obtain ⟨R, R', hR, hR', -, hc, hst, -, hu⟩ := (unreadable_isolated takesAll ['/']).1 _ _ ht ht'
    (Disk.keeps_append ..) [] hp (by rw [discover_twinNodes]; simp) hbad
  rw [added_spoiltNodes] at hu
  exact ⟨ht, ht', R, R', hR, hR', hc, hst, hu⟩

end Analyzer

end Bookbinder
