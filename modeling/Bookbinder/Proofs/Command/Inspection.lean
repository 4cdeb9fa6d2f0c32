import Bookbinder.Command.Run
import Bookbinder.Proofs.Analysis.Rebuild
import Bookbinder.Proofs.Module.Speaker

/-!
# Inspecting what is built

A build and an inspection of one of its sources see the same comments with the same links: the module of
the source has them all, except the one that speaks for the module (`Analyzer.analyze_sources`).

The name of a module falls back on the stem of its source. It is taken from the path below the project,
and a project that is a single source has no such path: its module is called `unknown`
(`Analyzer.single_source_has_no_stem`).
-/

namespace Bookbinder

namespace Analyzer

variable {a : Analyzer} {d : Disk} {root : Location} {names : List Text}

/-! ## The module of a source -/

theorem joinWith_inj_of_isName {names' : List Text} (h : ∀ n ∈ names, Path.IsName n)
    (h' : ∀ n ∈ names', Path.IsName n) (he : joinWith ['/'] names = joinWith ['/'] names') :
    names = names' := by
  have hpath : sourcePath [] names = sourcePath [] names' := congrArg ('/' :: ·) he
  exact sourcePath_inj h h' hpath

theorem document_of_linkFile {entries : List Entry}
    (h : a.linkFile d (sourcePath root names) = .ok entries) :
    a.document d root names =
      .ok (.ofEntries (joinWith ['/'] names) entries a.settings.sources.defaultCategory) := by
  rw [document, h]
  rfl

theorem path_of_document {m : ModuleDoc} (h : a.document d root names = .ok m) :
    m.info.path = joinWith ['/'] names := by
  obtain ⟨entries, -, rfl⟩ := exists_of_map_eq_ok h
  rfl

/-- The module of a source has the path of another source only if the sources are the same. -/
theorem filter_outcome {names' : List Text} (h' : ∀ n ∈ names', Path.IsName n)
    (h : ∀ n ∈ names, Path.IsName n) :
    (a.outcome d root names').2.toOption.filter (·.info.path == joinWith ['/'] names) =
      if names' == names then (a.document d root names').toOption else none := by
  show (a.document d root names').toOption.filter _ = _
  cases hdoc : a.document d root names' with
  | error e => simp [Except.toOption]
  | ok m =>
    have hpath := path_of_document hdoc
    by_cases he : names' = names
    · simp [Except.toOption, Option.filter, hpath, he]
    · have hne : joinWith ['/'] names' ≠ joinWith ['/'] names :=
        fun hjoin => he (joinWith_inj_of_isName h' h hjoin)
      simp [Except.toOption, Option.filter, hpath, he, hne]

/-- On a tree a source has exactly one module, which is known by the path of the source. -/
theorem filter_modules (ht : d.IsTree) (hnames : names ∈ a.filter.discover d root) {m : ModuleDoc}
    (hm : a.document d root names = .ok m) :
    (Analysis.ofOutcomes root ((a.filter.discover d root).map (a.outcome d root))).modules.filter
      (·.info.path == joinWith ['/'] names) = [m] := by
  have hone : (a.filter.discover d root).filter (· == names) = [names] := by
    rw [List.filter_beq, List.count_eq_one_of_mem (nodup_discover ht a.filter root) hnames]
    rfl
  refine List.perm_singleton.1 (((Analysis.modules_ofOutcomes_perm root _).filter _).trans (.of_eq ?_))
  calc (((a.filter.discover d root).map (a.outcome d root)).filterMap (·.2.toOption)).filter
        (·.info.path == joinWith ['/'] names)
      = ((a.filter.discover d root).filter (· == names)).filterMap
          fun names => (a.document d root names).toOption := by
        rw [List.filterMap_map, List.filter_filterMap, List.filterMap_filter]
        refine List.filterMap_congr fun names' hnames' => ?_
        exact filter_outcome (isName_of_mem_discover ht hnames') (isName_of_mem_discover ht hnames)
    _ = [m] := by
        rw [hone, List.filterMap_cons, hm]
        rfl

theorem linkFile_of_mem_discover (hnames : names ∈ a.filter.discover d root) {content : Text}
    (hread : d.readText (sourcePath root names) = .ok content) :
    ∃ dialect, Dialect.ofPath? (sourcePath root names) = some dialect ∧
      a.linkFile d (sourcePath root names) =
        .ok (a.settings.linking.linkAll content (Script.comments dialect content)) := by
  rw [Filter.discover, List.mem_mergeSort, List.mem_filter, Filter.isSource, Bool.and_eq_true] at hnames
  obtain ⟨dialect, hdialect⟩ := Option.isSome_iff_exists.1 hnames.2.1
  exact ⟨dialect, hdialect, by rw [linkFile, hread, hdialect]⟩

/-- The path of a source below the root and its whole path have the same stem. -/
theorem exists_stem?_eq (ht : d.IsTree) (hnames : names ∈ a.filter.discover d root)
    (hne : names ≠ []) :
    ∃ stem, Path.stem? (joinWith ['/'] names) = some stem ∧
      (sourcePath root names).stem? = some stem := by
  rw [Filter.discover, List.mem_mergeSort, List.mem_filter] at hnames
  have hall := ht.isName_source hnames.1
  obtain ⟨dir, n, rfl⟩ := List.eq_nil_or_concat' names |>.resolve_left hne
  refine ⟨(Path.cutName n).1, ?_, ?_⟩
  · rw [Path.stem?, Path.fileName?_joinWith fun m hm => hall m (List.mem_append_right root hm)]
    rfl
  · rw [← List.append_assoc] at hall
    rw [sourcePath, ← List.append_assoc, Path.stem?, fileName?_path hall]
    rfl

end Analyzer

/-! ## Inspecting a source -/

theorem Disk.pathExists_of_readText {d : Disk} {p : Path} {content : Text}
    (h : d.readText p = .ok content) : d.pathExists p := by
  unfold readText at h
  split at h
  · exact pathExists_of_follow_file ‹_›
  all_goals cases h

/-- An inspection of the source at a path with the settings for linking that the analyzer has. -/
structure InspectOptions.Inspects (o : InspectOptions) (a : Analyzer) (d : Disk) (p : Path) : Prop where
  settings : ∃ a', Analyzer.ofSettings
    ((Settings.loadOrDefault d settingsFile).merge o.overrides) = .ok a' ∧
      a'.settings.linking = a.settings.linking
  follow : d.follow o.file = d.follow p
  dialect : Dialect.ofPath? o.file = Dialect.ofPath? p

theorem InspectOptions.Inspects.entries_eq {o : InspectOptions} {a : Analyzer} {d : Disk} {p : Path}
    {content : Text} {dialect : Dialect} (h : o.Inspects a d p) (hread : d.readText p = .ok content)
    (hdialect : Dialect.ofPath? p = some dialect) :
    o.entries d = .ok (a.settings.linking.linkAll content (Script.comments dialect content)) := by
  obtain ⟨a', hset, hlinking⟩ := h.settings
  have hread' : d.readText o.file = .ok content := by
    rw [← hread, Disk.readText, Disk.readText, h.follow]
  have hlink : a'.linkFile d o.file =
      .ok (a.settings.linking.linkAll content (Script.comments dialect content)) := by
    rw [Analyzer.linkFile, hread', h.dialect, hdialect, hlinking]
  simp only [entries, Disk.pathExists_of_readText hread', hset, Bool.not_true, Bool.false_eq_true,
    if_false]
  exact hlink

/-! ## Builds and inspections -/

theorem Settings.defaultCategory_ne_nil {s : Settings} (h : s.fault? = none) :
    s.sources.defaultCategory ≠ [] := by
  intro hnil
  unfold fault? at h
  split_ifs at h with _ _ _ hblank
  exact hblank (by rw [hnil]; rfl)

namespace Analyzer

/-- On a tree every source that can be read has one module. It holds the comments that inspecting the
source shows, but for the first one with a tag `module`, and bears the name in that tag; else it is
called by the stem of the source, if the source lies below the project. Settings without fault leave no
module without a category. -/
theorem analyze_sources {a : Analyzer} {d : Disk} {p : Path} {R : Analysis} (ht : d.IsTree)
    (h : a.analyze d p = .ok R) :
    ∃ root, d.canonical p = .ok root ∧
      ∀ names ∈ a.filter.discover d root, ∀ content,
        d.readText (sourcePath root names) = .ok content →
          ∃ entries m fallback,
            a.linkFile d (sourcePath root names) = .ok entries ∧
            (∀ o : InspectOptions, o.Inspects a d (sourcePath root names) →
              o.entries d = .ok entries) ∧
            R.modules.filter (·.info.path == joinWith ['/'] names) = [m] ∧
            m.Represents entries fallback ∧
            (names ≠ [] → (sourcePath root names).stem? = some fallback) ∧
            (names = [] → fallback = "unknown".toList) ∧
            (a.settings.fault? = none → m.info.category ≠ [] ∧ m.info.subcategory ≠ []) := by
  obtain ⟨root, hp, rfl⟩ := analyze_ok h
  refine ⟨root, hp, fun names hnames content hread => ?_⟩
  obtain ⟨dialect, hdialect, hlink⟩ := linkFile_of_mem_discover hnames hread
  refine ⟨_, _, (Path.stem? (joinWith ['/'] names)).getD "unknown", hlink, ?_,
    filter_modules ht hnames (document_of_linkFile hlink), ModuleDoc.represents_ofEntries .., ?_, ?_, ?_⟩
  · exact fun o ho => ho.entries_eq hread hdialect
  · intro hne
    obtain ⟨stem, hrel, hstem⟩ := exists_stem?_eq ht hnames hne
    rw [hstem, hrel]
    rfl
  · rintro rfl
    rfl
  · exact fun hfault => ModuleDoc.categories_ne_nil _ _ (Settings.defaultCategory_ne_nil hfault)

/-! ## A source in a directory, and a source alone -/

/-- A source with a comment on its own, then one that speaks for the module, then one that could. -/
def kitText : Text := "/** One. */\nlet a = 1;\n/** @module kit of parts */\n/** @module b */\n"

/-- The source in a directory of the project. -/
def kitDisk : Disk :=
  { nodes := [(["lib".toList], .directory),
      (["lib".toList, "a.js".toList], .file (Disk.encode kitText))] }

theorem isTree_kitDisk : kitDisk.IsTree where
  nodup := by decide
  entry := by
    intro e he
    rcases List.mem_cons.1 he with rfl | he
    · exact ⟨[], "lib".toList, rfl, by decide, rfl⟩
    · obtain rfl := List.mem_singleton.1 he
      exact ⟨["lib".toList], "a.js".toList, rfl, by decide, rfl⟩

theorem follow_kitDisk : kitDisk.follow "/lib/a.js" =
    .ok (.file ["lib".toList, "a.js".toList] (Disk.encode kitText)) :=
  Disk.follow_of_within 9 rfl

theorem inspects_kitDisk :
    InspectOptions.Inspects { file := "lib/a.js" } takesAll kitDisk "/lib/a.js" := by
  refine ⟨?_, ?_, ?_⟩
  · have hload : Settings.loadOrDefault kitDisk settingsFile = {} :=
      Settings.loadOrDefault_of_unreadable
        (Disk.readText_of_follow_missing (Disk.follow_of_within 9 rfl))
    have hset : (ofSettings ((Settings.loadOrDefault kitDisk settingsFile).merge
        (InspectOptions.overrides { file := "lib/a.js" }))).map (·.settings.linking) = .ok {} := by
      rw [hload]
      decide +kernel
    exact exists_of_map_eq_ok hset
  · rw [follow_kitDisk]
    exact Disk.follow_of_within 9 rfl
  · decide +kernel

theorem analyze_sources_kitDisk :
    ∃ R entries m, takesAll.analyze kitDisk ['/'] = .ok R ∧
      takesAll.linkFile kitDisk "/lib/a.js" = .ok entries ∧
      InspectOptions.entries { file := "lib/a.js" } kitDisk = .ok entries ∧
      R.modules.filter (·.info.path == "lib/a.js".toList) = [m] ∧
      m.Represents entries "a".toList ∧ m.info.category ≠ [] ∧ m.info.subcategory ≠ [] := by
  have hp : kitDisk.canonical ['/'] = .ok [] := Disk.canonical_root _
  have hs : takesAll.filter.discover kitDisk [] = [["lib".toList, "a.js".toList]] :=
    Filter.discover_eq_of_perm (by decide +kernel) (by decide)
  have hR := analyze_of_canonical_ok (a := takesAll) hp
  rw [hs, if_neg (by simp)] at hR
  obtain ⟨root, hroot, hsources⟩ := analyze_sources isTree_kitDisk hR
  obtain rfl : [] = root := Except.ok.inj (hp.symm.trans hroot)
  obtain ⟨entries, m, fallback, hlink, hinspect, hmodule, hm, hstem, -, hcategories⟩ :=
    hsources ["lib".toList, "a.js".toList] (by rw [hs]; simp) kitText
      (Disk.readText_of_follow_file follow_kitDisk)
  obtain rfl : fallback = "a".toList := by
    have h := hstem (by simp)
    have ha : (sourcePath [] ["lib".toList, "a.js".toList]).stem? = some "a".toList := by
      decide +kernel
    exact Option.some.inj (h.symm.trans ha)
  exact ⟨_, entries, m, hR, hlink, hinspect _ inspects_kitDisk, hmodule, hm,
    hcategories (by decide +kernel)⟩

/-- The settings of a project in which every file at the top is a source. -/
def topSettings : Settings := { sources := { includes := ["*"] } }

/-- A source and nothing else. -/
def loneDisk : Disk := { nodes := [(["a.js".toList], .file (Disk.encode []))] }

theorem isTree_loneDisk : loneDisk.IsTree where
  nodup := by decide
  entry := by
    intro e he
    obtain rfl := List.mem_singleton.1 he
    exact ⟨[], "a.js".toList, rfl, by decide, rfl⟩

/-- The module of a source need not fall back on the stem of the source. -/
theorem single_source_has_no_stem :
    ¬∀ (s : Settings) (a : Analyzer) (d : Disk) (p : Path) (R : Analysis) (root : Location)
      (names : List Text) (content : Text), ofSettings s = .ok a → d.IsTree →
      a.analyze d p = .ok R → d.canonical p = .ok root → names ∈ a.filter.discover d root →
      d.readText (sourcePath root names) = .ok content →
      ∃ entries m stem, a.linkFile d (sourcePath root names) = .ok entries ∧ m ∈ R.modules ∧
        m.info.path = joinWith ['/'] names ∧ (sourcePath root names).stem? = some stem ∧
        m.Represents entries stem := by
  intro h
  have hset : (ofSettings topSettings).map (fun a => (a.settings,
      (loneDisk.files ["a.js".toList]).filter (a.filter.isSource ["a.js".toList]))) =
        .ok (topSettings, [[]]) := by
    decide +kernel
  obtain ⟨a, ha, hpair⟩ := exists_of_map_eq_ok hset
  obtain ⟨hs, hfiles⟩ := Prod.mk.inj hpair
  have hd : a.filter.discover loneDisk ["a.js".toList] = [[]] :=
    Filter.discover_eq_of_perm (.of_eq hfiles) (by decide)
  have hf : loneDisk.follow "/a.js" = .ok (.file ["a.js".toList] (Disk.encode [])) :=
    Disk.follow_of_within 9 rfl
  have hp : loneDisk.canonical "/a.js" = .ok ["a.js".toList] := by rw [Disk.canonical, hf]
  have hread : loneDisk.readText (sourcePath ["a.js".toList] []) = .ok [] :=
    Disk.readText_of_follow_file hf
  have hlink : a.linkFile loneDisk (sourcePath ["a.js".toList] []) = .ok [] := by
    rw [linkFile, hread, hs]
    decide +kernel
  have hnames : [] ∈ a.filter.discover loneDisk ["a.js".toList] := by
    rw [hd]
    simp
  have hR := analyze_of_canonical_ok (a := a) hp
  rw [if_neg (List.ne_nil_of_mem hnames)] at hR
  obtain ⟨entries, m, stem, hlink', hm, hpath, hstem, hrep⟩ :=
    h _ _ _ _ _ _ _ _ ha isTree_loneDisk hR hp hnames hread
  obtain rfl : [] = entries := Except.ok.inj (hlink.symm.trans hlink')
  -- The only module there is has an empty path, and so no stem to fall back on.
  have hone := filter_modules isTree_loneDisk hnames (document_of_linkFile hlink)
  have hm : m ∈ [_] := hone ▸ List.mem_filter.2 ⟨hm, by simp [hpath]⟩
  have hname : m.info.name = "unknown".toList := by rw [List.mem_singleton.1 hm]; rfl
  have ha : (sourcePath ["a.js".toList] []).stem? = some "a".toList := by decide +kernel
  obtain rfl : stem = "a".toList := Option.some.inj (hstem.symm.trans ha)
  cases hrep with
  | unnamed _ _ hrep => exact absurd (hname.symm.trans hrep) (by decide)
  | named hcomments => simp at hcomments

end Analyzer

end Bookbinder
