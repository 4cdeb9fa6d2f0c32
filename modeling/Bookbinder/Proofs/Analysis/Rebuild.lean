import Bookbinder.Proofs.Analysis.Counts
import Bookbinder.Proofs.Book.Confinement
import Bookbinder.Proofs.Disk.Upkeep
import Bookbinder.Proofs.Disk.Walks

/-!
# The analysis of a project that holds its book

A book may be written into the project that it documents. None of its files is a source
(`Book.MayChange.isBookName`, `IsBookName.ofPath?_eq_none`), so on a tree without links the project has
the same sources afterwards, with the same texts (`Book.Changes.discover_eq`,
`Book.Changes.outcome_eq`), and is analysed alike (`Book.Changes.analyze_eq`).
-/

namespace Bookbinder

/-! ## Names of pages -/

/-- The extensions of the files of a book. -/
def bookExtensions : List Text := ["qmd", "yml", "md"]

/-- The name has the extension of a file of a book. -/
def IsBookName (n : Text) : Prop := ∃ stem, ∃ ext ∈ bookExtensions, n = stem ++ '.' :: ext

theorem fileName?_path {dir : Location} {n : Text} (h : ∀ m ∈ dir ++ [n], Path.IsName m) :
    Path.fileName? (Location.path (dir ++ [n])) = some n := by
  have hparts : Path.AreParts [.root] (dir ++ [n]) :=
    ⟨.inl rfl, fun m hm => (h m hm).isStep, fun m hm => (h m hm).slash⟩
  have hpath : Location.path (dir ++ [n]) = Path.ofParts [.root] (dir ++ [n]) := by
    show '/' :: joinWith ['/'] (dir ++ [n]) =
      '/' :: joinWith ['/'] (((dir ++ [n]).map Path.Component.ofStep).map Path.Component.text)
    rw [Path.map_text_ofStep]
  rw [hpath, hparts.fileName?_ofParts (h n (by simp))]

/-- A file of a book has no dialect. -/
theorem IsBookName.ofPath?_eq_none {n : Text} {p : Path} (h : IsBookName n)
    (hp : p.fileName? = some n) : Dialect.ofPath? p = none := by
  obtain ⟨stem, ext, hext, rfl⟩ := h
  have hnone : ∀ e ∈ bookExtensions, '.' ∉ e ∧ Dialect.ofExtension? e = none := by decide +kernel
  obtain ⟨hdot, hdialect⟩ := hnone ext hext
  rw [Dialect.ofPath?, Path.extension?, hp, Option.bind_some, Path.cutName_append_dot hdot]
  split
  · rfl
  · exact hdialect

namespace Book

variable {d d' : Disk} {cs : List Category} {out : Path} {root loc l : Location} {names : List Text}

theorem isBookName_of_suffix {n : Text} (h : ".qmd".toList <:+ n) : IsBookName n := by
  obtain ⟨stem, rfl⟩ := h
  exact ⟨stem, "qmd".toList, by decide, rfl⟩

/-- The files that a run may change have names of pages. -/
theorem MayChange.isBookName (h : MayChange cs d loc l) : ∃ dir n, l = dir ++ [n] ∧ IsBookName n := by
  cases h with
  | projectFile => exact ⟨loc, _, rfl, "_quarto".toList, "yml".toList, by decide, rfl⟩
  | homePage h => exact ⟨loc, _, rfl, "index".toList, "md".toList, by decide, rfl⟩
  | page h =>
    have hindex : IsBookName Layout.indexPage := isBookName_of_suffix ⟨"index".toList, by decide⟩
    rw [pages_chaptersPlan] at h
    obtain ⟨c, hc, h⟩ := List.mem_flatMap.1 h
    rcases List.mem_cons.1 h with he | h
    · cases he
      exact ⟨loc ++ [Layout.chaptersDir, c.dir], Layout.indexPage, by simp, hindex⟩
    · obtain ⟨s, hs, h⟩ := List.mem_flatMap.1 h
      rcases List.mem_cons.1 h with he | h
      · cases he
        exact ⟨loc ++ [Layout.chaptersDir, c.dir, s.dir], Layout.indexPage, by simp, hindex⟩
      · obtain ⟨m, hm, he⟩ := List.mem_map.1 h
        cases he
        exact ⟨loc ++ [Layout.chaptersDir, c.dir, s.dir], m.2, by simp,
          isBookName_of_suffix (Layout.isSuffix_of_mem_modules hc hs hm)⟩

/-! ## The analysis -/

namespace Changes

/-- A file that is no page is as it was. -/
theorem node?_eq (h : Changes cs out d d') (dir : Location) {n : Text} (hn : ¬IsBookName n) :
    d'.node? (dir ++ [n]) = d.node? (dir ++ [n]) ∨
      (d.node? (dir ++ [n]) = none ∧ d'.node? (dir ++ [n]) = some .directory) := by
  rcases h.node (dir ++ [n]) with he | hd | ⟨loc, bytes, -, -, hm⟩
  · exact .inl he
  · exact .inr hd
  · obtain ⟨dir', n', he, hn'⟩ := hm.isBookName
    obtain ⟨-, hlast⟩ := List.append_inj' he rfl
    exact absurd ((List.cons.inj hlast).1 ▸ hn') hn

/-- The sources are the same files. -/
theorem file_iff (h : Changes cs out d d') (ht' : d'.IsTree)
    (hs : (Dialect.ofPath? l.path).isSome) (bytes : ByteArray) :
    d'.node? l = some (.file bytes) ↔ d.node? l = some (.file bytes) := by
  have hkeep {b : ByteArray} (hf : d'.node? l = some (.file b)) : d'.node? l = d.node? l := by
    obtain ⟨dir, n, hl, -⟩ := ht'.entry _ (Disk.mem_of_node? (Disk.ne_nil_of_node? hf (by simp)) hf)
    obtain rfl : l = dir ++ [n] := hl
    -- Only files of the book change, and none of their names has a dialect.
    have hbook : ¬IsBookName n := by
      intro hn
      rw [hn.ofPath?_eq_none (fileName?_path (ht'.forall_isName (by rw [hf]; rfl)))] at hs
      simp at hs
    rcases h.node?_eq dir hbook with he | ⟨-, hd⟩
    · exact he
    · simp [hd] at hf
  constructor
  · intro hf
    rwa [← hkeep hf]
  · intro hf
    obtain ⟨b, hf'⟩ := h.grows.file hf
    rwa [hkeep hf']

theorem discover_eq (h : Changes cs out d d') (ht : d.IsTree) (ht' : d'.IsTree) (hno : d.NoLinks)
    (f : Filter) (root : Location) : f.discover d' root = f.discover d root := by
  have ho := isOrdering_lexLe isOrdering_textLe
  refine ho.eq_of_perm (ho.pairwise_mergeSort _) (ho.pairwise_mergeSort _) ?_
  rw [List.perm_ext_iff_of_nodup (Analyzer.nodup_discover ht' f root)
    (Analyzer.nodup_discover ht f root)]
  intro names
  simp only [Filter.discover, List.mem_mergeSort, List.mem_filter]
  refine and_congr_left fun hs => ?_
  rw [Filter.isSource, Bool.and_eq_true] at hs
  have hfile := h.file_iff ht' (l := root ++ names) hs.1
  rw [ht'.mem_files_iff ((h.grows.noLinks hno).noLinkBelow root),
    ht.mem_files_iff (hno.noLinkBelow root)]
  simp only [hfile]

theorem outcome_eq (h : Changes cs out d d') (ht : d.IsTree) (ht' : d'.IsTree) (hno : d.NoLinks)
    (a : Analyzer) (hn : names ∈ a.filter.discover d root) :
    a.outcome d' root names = a.outcome d root names := by
  rw [Filter.discover, List.mem_mergeSort, List.mem_filter, ht.mem_files_iff (hno.noLinkBelow root),
    Filter.isSource, Bool.and_eq_true] at hn
  obtain ⟨⟨⟨bytes, hf⟩, -⟩, hs, -⟩ := hn
  have hread : d'.readText (sourcePath root names) = d.readText (sourcePath root names) := by
    rw [Disk.readText, Disk.readText, sourcePath, ht.follow_path_of_file hf,
      ht'.follow_path_of_file ((h.file_iff ht' hs bytes).2 hf)]
  rw [Analyzer.outcome, Analyzer.outcome, Analyzer.document, Analyzer.document, Analyzer.linkFile,
    Analyzer.linkFile, hread]

end Changes

end Book

theorem Disk.Grows.canonical {d d' : Disk} {p : Path} {root : Location} (hg : d.Grows d')
    (h : d.canonical p = .ok root) : d'.canonical p = .ok root := by
  unfold Disk.canonical at h ⊢
  split at h
  · rename_i hf
    cases h
    obtain ⟨bytes', hf'⟩ := hg.follow_file hf
    rw [hf']
  · rename_i hf
    cases h
    have hp := ne_nil_of_follow hf
    rw [follow_eq hp] at hf
    have hl : d.LeadsTo p _ := hf
    rw [(hl.mono_ways hg.toKeepsWays).follow hp]
  · simp at h
  · simp at h

/-- A project is analysed alike when its book has been written. -/
theorem Book.Changes.analyze_eq {cs : List Category} {out : Path} {d d' : Disk}
    (h : Changes cs out d d') (ht : d.IsTree) (ht' : d'.IsTree) (hno : d.NoLinks) {a : Analyzer}
    {p : Path} {root : Location} (hp : d.canonical p = .ok root) :
    a.analyze d' p = a.analyze d p := by
  have hd := h.discover_eq ht ht' hno a.filter root
  have ho : (a.filter.discover d root).map (a.outcome d' root) =
      (a.filter.discover d root).map (a.outcome d root) :=
    List.map_congr_left fun names hn => h.outcome_eq ht ht' hno a hn
  rw [Analyzer.analyze_of_canonical_ok hp, Analyzer.analyze_of_canonical_ok (h.grows.canonical hp), hd,
    Analyzer.analyzeSources_eq, Analyzer.analyzeSources_eq, ho]

end Bookbinder
