import Bookbinder.Proofs.Analysis.Rebuild
import Bookbinder.Proofs.Module.Stability
import Bookbinder.Proofs.Text.Margins

/-!
# The sources of a project

Discovery finds a file if a walk comes to it, its name has the extension of a source, and the patterns
take its path (`IsSourceFile`). On a tree without links that is all there is to it
(`Filter.discover_exact`): a walk comes to the files that lie in directories it enters
(`Disk.IsTree.mem_files_iff`), and a filter accepts what its patterns stand for
(`Filter.accepts_iff`).
-/

namespace Bookbinder

variable {d : Disk} {root loc : Location} {names : List Text} {s s' : SourceSettings} {f f' : Filter}

/-! ## Extensions of sources -/

/-- The extensions of sources in lower case. -/
def sourceExtensions : List Text := ["js", "mjs", "cjs", "jsx", "ts", "mts", "cts", "tsx"]

/-- The last name has an extension of a source, whatever the case of its letters. -/
def HasSourceExtension (loc : Location) : Prop :=
  ∃ dir n ext, loc = dir ++ [n] ∧ Path.HasExtension n ext ∧ lowercase ext ∈ sourceExtensions

theorem Dialect.isSome_ofExtension? {ext : Text} :
    (ofExtension? ext).isSome ↔ lowercase ext ∈ sourceExtensions := by
  have hext : sourceExtensions = extensions.map (·.1.toList) := by decide
  rw [ofExtension?, Option.isSome_map, List.find?_isSome, hext, List.mem_map]
  simp only [beq_iff_eq]

theorem isSome_ofPath?_iff {dir : Location} {n : Text} (h : ∀ m ∈ dir ++ [n], Path.IsName m) :
    (Dialect.ofPath? (Location.path (dir ++ [n]))).isSome ↔ HasSourceExtension (dir ++ [n]) := by
  rw [Dialect.ofPath?, Path.extension?, fileName?_path h, Option.bind_some]
  constructor
  · intro hs
    cases he : (Path.cutName n).2 with
    | none => simp [he] at hs
    | some ext =>
      rw [he, Option.bind_some, Dialect.isSome_ofExtension?] at hs
      exact ⟨dir, n, ext, rfl, Path.cutName_eq_some_iff.1 he, hs⟩
  · rintro ⟨dir', n', ext, he, hn, hext⟩
    obtain ⟨-, hlast⟩ := List.append_inj' he rfl
    obtain rfl : n = n' := (List.cons.inj hlast).1
    rw [Path.cutName_eq_some_iff.2 hn, Option.bind_some, Dialect.isSome_ofExtension?]
    exact hext

/-! ## Patterns -/

/-- A pattern is read as it stands, and one for any directory also as what it says of the top. -/
inductive IsReading : Text → Text → Prop
  | whole {pattern : Text} : IsReading pattern pattern
  | top {rest : Text} : IsReading ("**/".toList ++ rest) rest

/-- Some pattern matches the path. -/
def MatchesSome (patterns : List Text) (p : Text) : Prop :=
  ∃ pattern ∈ patterns, ∃ r g, IsReading pattern r ∧ Glob.parse r = .ok g ∧ g.isMatch p

theorem MatchesSome.mono {patterns patterns' : List Text} {p : Text} (h : MatchesSome patterns p)
    (hsub : patterns ⊆ patterns') : MatchesSome patterns' p := by
  obtain ⟨pattern, hp, hg⟩ := h
  exact ⟨pattern, hsub hp, hg⟩

section Except

variable {ε α β : Type} {e : Except ε α} {k : α → Except ε β} {b : β} {as : List α} {bs : List β}

theorem exists_of_bind_eq_ok (h : e.bind k = .ok b) : ∃ a, e = .ok a ∧ k a = .ok b := by
  cases e with
  | error _ => cases h
  | ok a => exact ⟨a, rfl, h⟩

/-- The results of a list are those of its members. -/
theorem mem_of_mapM_eq_ok (h : as.mapM k = .ok bs) : b ∈ bs ↔ ∃ a ∈ as, k a = .ok b := by
  induction as generalizing bs with
  | nil =>
    obtain rfl : [] = bs := Except.ok.inj h
    simp
  | cons a as ih =>
    rw [List.mapM_cons] at h
    obtain ⟨c, hc, h⟩ := exists_of_bind_eq_ok h
    obtain ⟨cs, hcs, h⟩ := exists_of_bind_eq_ok h
    obtain rfl : c :: cs = bs := Except.ok.inj h
    rw [List.mem_cons, ih hcs, List.exists_mem_cons_iff, hc, Except.ok.injEq, eq_comm]

end Except

namespace Filter

/-- The readings of a pattern in the order in which they are compiled. -/
def readings (pattern : Text) : List Text := pattern :: (stripHead? "**/" pattern).toList

theorem mem_readings {pattern r : Text} : r ∈ readings pattern ↔ IsReading pattern r := by
  rw [readings, List.mem_cons, Option.mem_toList]
  constructor
  · rintro (rfl | hr)
    · exact .whole
    · rw [stripHead?_eq_some hr]
      exact .top
  · rintro (_ | _)
    · exact .inl rfl
    · exact .inr (stripHead?_append "**/".toList r)

theorem globs_eq (pattern : Text) : globs pattern = (readings pattern).mapM Glob.parse := by
  rw [globs, readings, List.mapM_cons]
  cases stripHead? "**/" pattern with
  | none => rfl
  | some rest => simp only [Option.toList_some, List.mapM_cons, List.mapM_nil, bind_assoc, pure_bind]

theorem allGlobs_eq (patterns : List Text) :
    allGlobs patterns = (patterns.flatMap readings).mapM Glob.parse := by
  induction patterns with
  | nil => rfl
  | cons pattern patterns ih =>
    rw [List.flatMap_cons, List.mapM_append, ← ih, ← globs_eq, allGlobs, allGlobs, List.mapM_cons]
    simp only [bind_assoc, pure_bind, List.flatten_cons]

theorem allGlobs_any_iff {patterns : List Text} {gs : List Glob} (h : allGlobs patterns = .ok gs)
    (p : Text) : gs.any (·.isMatch p) ↔ MatchesSome patterns p := by
  rw [allGlobs_eq] at h
  simp only [List.any_eq_true, mem_of_mapM_eq_ok h, List.mem_flatMap, mem_readings]
  constructor
  · rintro ⟨g, ⟨r, ⟨pattern, hp, hr⟩, hg⟩, hm⟩
    exact ⟨pattern, hp, r, g, hr, hg, hm⟩
  · rintro ⟨pattern, hp, r, g, hr, hg, hm⟩
    exact ⟨g, ⟨r, ⟨pattern, hp, hr⟩, hg⟩, hm⟩

/-- A filter accepts what some pattern to include matches and no pattern to exclude. -/
theorem accepts_iff (h : ofSettings s = .ok f) (p : Text) :
    f.accepts p ↔ MatchesSome s.includes p ∧ ¬MatchesSome s.excludes p := by
  obtain ⟨includes, hi, h⟩ := exists_of_bind_eq_ok h
  obtain ⟨excludes, he, h⟩ := exists_of_bind_eq_ok h
  obtain rfl : ⟨includes, excludes⟩ = f := Except.ok.inj h
  rw [accepts, Bool.and_eq_true, Bool.not_eq_true', ← Bool.not_eq_true, allGlobs_any_iff hi,
    allGlobs_any_iff he]

end Filter

/-! ## Discovery -/

/-- What makes a file below `root` a source: it is a regular file, a walk enters the directories between,
its name has the extension of a source, and the patterns take the path from the root to it. -/
structure IsSourceFile (d : Disk) (root : Location) (s : SourceSettings) (names : List Text) : Prop where
  file : ∃ bytes, d.node? (root ++ names) = some (.file bytes)
  entered : ∀ n ∈ names.dropLast, n ∉ Disk.skippedDirectories
  extension : HasSourceExtension (root ++ names)
  included : MatchesSome s.includes (joinWith ['/'] names)
  notExcluded : ¬MatchesSome s.excludes (joinWith ['/'] names)

theorem IsSourceFile.mono (h : IsSourceFile d root s names) (hi : s.includes ⊆ s'.includes)
    (he : s'.excludes ⊆ s.excludes) : IsSourceFile d root s' names where
  file := h.file
  entered := h.entered
  extension := h.extension
  included := h.included.mono hi
  notExcluded hm := h.notExcluded (hm.mono he)

namespace Filter

theorem mem_discover_iff (ht : d.IsTree) (hno : d.NoLinkBelow root) (hf : ofSettings s = .ok f) :
    names ∈ f.discover d root ↔ IsSourceFile d root s names := by
  have hentered : (∀ n ∈ names.dropLast, Disk.isEntered n) ↔
      ∀ n ∈ names.dropLast, n ∉ Disk.skippedDirectories := by
    simp [Disk.isEntered]
  have hextension {bytes : ByteArray} (hfile : d.node? (root ++ names) = some (.file bytes)) :
      (Dialect.ofPath? (sourcePath root names)).isSome ↔ HasSourceExtension (root ++ names) := by
    obtain ⟨dir, n, hloc, -⟩ :=
      ht.entry _ (Disk.mem_of_node? (Disk.ne_nil_of_node? hfile (by simp)) hfile)
    have hnames := ht.forall_isName (by rw [hfile]; rfl : (d.node? (root ++ names)).isSome)
    rw [show root ++ names = dir ++ [n] from hloc] at hnames ⊢
    rw [sourcePath, show root ++ names = dir ++ [n] from hloc]
    exact isSome_ofPath?_iff hnames
  rw [discover, List.mem_mergeSort, List.mem_filter, ht.mem_files_iff hno, hentered, isSource,
    Bool.and_eq_true, accepts_iff hf]
  constructor
  · rintro ⟨⟨⟨bytes, hfile⟩, hd⟩, hext, hi, he⟩
    exact ⟨⟨bytes, hfile⟩, hd, (hextension hfile).1 hext, hi, he⟩
  · rintro ⟨⟨bytes, hfile⟩, hd, hext, hi, he⟩
    exact ⟨⟨⟨bytes, hfile⟩, hd⟩, (hextension hfile).2 hext, hi, he⟩

/-- Sources come in the order of the names on the way to them, each once. -/
theorem pairwise_discover (ht : d.IsTree) (f : Filter) (root : Location) :
    (f.discover d root).Pairwise (List.Lex TextLt) := by
  have hle := (isOrdering_lexLe isOrdering_textLe).pairwise_mergeSort
    ((d.files root).filter (f.isSource root))
  refine (hle.and (Analyzer.nodup_discover ht f root)).imp ?_
  rintro a b ⟨hab, hne⟩
  have hlt (t : Text) : ¬TextLt t t := fun h => h.ne rfl
  exact ((lexLe_iff (fun _ _ => textLe_iff) hlt).1 hab).resolve_left hne

/-- Below a root without links discovery finds the files that are sources by the settings and nothing
else, in order and each once. So it finds no less with more patterns to include, and no more with more
patterns to exclude. -/
theorem discover_exact (ht : d.IsTree) (hno : d.NoLinkBelow root) (hf : ofSettings s = .ok f) :
    (f.discover d root).Pairwise (List.Lex TextLt) ∧ (f.discover d root).Nodup ∧
    (∀ names, names ∈ f.discover d root ↔ IsSourceFile d root s names) ∧
    ∀ s' f', ofSettings s' = .ok f' → s.includes ⊆ s'.includes → s'.excludes ⊆ s.excludes →
      f.discover d root ⊆ f'.discover d root := by
  refine ⟨pairwise_discover ht f root, Analyzer.nodup_discover ht f root,
    fun names => mem_discover_iff ht hno hf, fun s' f' hf' hi he names hn => ?_⟩
  exact (mem_discover_iff ht hno hf').2 (((mem_discover_iff ht hno hf).1 hn).mono hi he)

/-! ## A project with files to pass over -/

/-- A project in a directory that would not be entered below another root. It has a hidden file without an
extension, one with an extension in capitals, and a file in a directory that is not entered. -/
def vendored : Disk where
  nodes :=
    let empty := .file (Disk.encode [])
    [(["node_modules".toList], .directory), (["node_modules".toList, ".js".toList], empty),
     (["node_modules".toList, "a.JS".toList], empty), (["node_modules".toList, "lib".toList], .directory),
     (["node_modules".toList, "lib".toList, "b.min.js".toList], empty),
     (["node_modules".toList, "lib".toList, "c.ts".toList], empty),
     (["node_modules".toList, "node_modules".toList], .directory),
     (["node_modules".toList, "node_modules".toList, "d.js".toList], empty)]

def everything : SourceSettings := { includes := ["**/*"], excludes := [] }

def unminified : SourceSettings := { includes := ["**/*"], excludes := ["**/*.min.js"] }

/-- The filter of `everything`. -/
def everyFilter : Filter := ⟨[⟨[.anyDirectories, .anyRun]⟩, ⟨[.anyRun]⟩], []⟩

/-- The filter of `unminified`. -/
def unminifiedFilter : Filter :=
  let minified : List Glob.Token :=
    [.anyRun, .char '.', .char 'm', .char 'i', .char 'n', .char '.', .char 'j', .char 's']
  { everyFilter with excludes := [⟨.anyDirectories :: minified⟩, ⟨minified⟩] }

theorem ofSettings_everything : ofSettings everything = .ok everyFilter := by decide +kernel

theorem ofSettings_unminified : ofSettings unminified = .ok unminifiedFilter := by decide +kernel

theorem discover_unminified : unminifiedFilter.discover vendored ["node_modules".toList] =
    [["a.JS".toList], ["lib".toList, "c.ts".toList]] :=
  discover_eq_of_perm (by decide +kernel) (by decide)

theorem discover_exact_vendored :
    vendored.IsTree ∧ vendored.NoLinkBelow ["node_modules".toList] ∧
    IsSourceFile vendored ["node_modules".toList] unminified ["a.JS".toList] ∧
    ¬IsSourceFile vendored ["node_modules".toList] unminified [".js".toList] ∧
    ¬IsSourceFile vendored ["node_modules".toList] unminified
      ["node_modules".toList, "d.js".toList] ∧
    unminifiedFilter.discover vendored ["node_modules".toList] ⊆
      everyFilter.discover vendored ["node_modules".toList] := by
  have ht : vendored.IsTree := by decide +kernel
  have hno : vendored.NoLinkBelow ["node_modules".toList] :=
    (Disk.noLinks_of_nodes (by simp [vendored])).noLinkBelow _
  obtain ⟨-, -, hmem, hmore⟩ := discover_exact ht hno ofSettings_unminified
  refine ⟨ht, hno, (hmem _).1 ?_, ?_, ?_,
    hmore _ _ ofSettings_everything (List.Subset.refl _) (List.nil_subset _)⟩
  · rw [discover_unminified]
    exact List.mem_cons_self
  · rw [← hmem, discover_unminified]
    decide
  · rw [← hmem, discover_unminified]
    decide

end Filter

end Bookbinder
