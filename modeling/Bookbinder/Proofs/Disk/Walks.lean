import Bookbinder.Proofs.Disk.Directories
import Mathlib.Data.List.Nodup
import Mathlib.Data.List.Perm.Subperm

/-!
# What a walk finds

`Finds` lists the ways in which a walk comes to a file: by a name in the directory where it stands, by a
link to a file, or from a directory that it enters by a name or by a link. On a tree these are the files
that a walk yields (`mem_filesFrom_iff`).

A file that is found is found again when nodes are added (`Keeps.files_subset`), and its path leads to
it, unless a name on the way is too long for any path (`IsTree.follow_of_mem_files`). So its path leads
to the same file when nodes are added (`Keeps.follow_source`). On a tree without links a walk finds the
files in directories that it enters (`IsTree.mem_files_iff`), and their paths lead to them
(`IsTree.follow_path_of_file`).
-/

namespace Bookbinder

namespace Disk

variable {d d' : Disk} {links : Nat} {root here loc : Location} {ps names file : List Text}
  {p : Path} {n : Text}

/-! ## More nodes -/

theorem keeps_append (nodes more : List (Location × Node)) (workDir : Location) :
    Keeps ⟨nodes, workDir⟩ ⟨nodes ++ more, workDir⟩ where
  workDir := rfl
  node {l n} h := by
    unfold node? at h ⊢
    split
    · rwa [if_pos ‹_›] at h
    · rw [if_neg ‹_›] at h
      rw [List.lookup_append, h]
      rfl

/-- The answer does not come from a missing node. -/
def IsDefinite : Except DiskError Found → Prop
  | .ok (.missing _) | .error .notFound => False
  | _ => True

/-- New nodes change an answer only where a node was missing. -/
theorem Keeps.followFrom_eq (hk : d.Keeps d') (h : IsDefinite (d.followFrom links here ps)) :
    d'.followFrom links here ps = d.followFrom links here ps := by
  fun_induction followFrom d links here ps with
  | case1 => exact followFrom_nil
  | case2 _ _ _ _ hp ih => exact (followFrom_skip hp).trans (ih h)
  | case3 _ _ _ _ ih => exact followFrom_parent.trans (ih h)
  | case4 _ _ _ _ hs hn hl => rw [followFrom, if_neg hs, if_neg hn, if_pos hl]
  | case5 => exact h.elim
  | case6 => exact h.elim
  | case7 _ _ _ _ hs hn hl _ hd ih =>
    exact (followFrom_enter ⟨hs, hn, hl⟩ (hk.node hd)).trans (ih h)
  | case8 _ _ _ hs hn hl _ _ hd =>
    rw [followFrom_entry ⟨hs, hn, hl⟩, hk.node hd]
    rfl
  | case9 _ _ _ _ hs hn hl _ _ hd hr =>
    rw [followFrom_entry ⟨hs, hn, hl⟩, hk.node hd]
    exact if_neg hr
  | case10 _ _ _ hs hn hl _ _ hd => rw [followFrom_entry ⟨hs, hn, hl⟩, hk.node hd]
  | case11 _ _ _ hs hn hl _ _ hd _ ih =>
    exact (followFrom_link ⟨hs, hn, hl⟩ (hk.node hd)).trans (ih h)

theorem Keeps.follow_eq (hk : d.Keeps d') (h : IsDefinite (d.follow p)) :
    d'.follow p = d.follow p := by
  unfold follow at h ⊢
  split
  · rfl
  · rename_i hp
    rw [if_neg hp] at h
    rw [hk.workDir]
    exact hk.followFrom_eq h

theorem Keeps.canonical (hk : d.Keeps d') (h : d.canonical p = .ok root) :
    d'.canonical p = .ok root := by
  have hdef : IsDefinite (d.follow p) := by
    unfold Disk.canonical at h
    split at h
    · rename_i hf
      rw [hf]
      trivial
    · rename_i hf
      rw [hf]
      trivial
    · simp at h
    · simp at h
  rw [← h, Disk.canonical, Disk.canonical, hk.follow_eq hdef]

theorem Keeps.length_le (hk : d.Keeps d') (ht : d.IsTree) : d.nodes.length ≤ d'.nodes.length := by
  have hsub : d.nodes.map (·.1) ⊆ d'.nodes.map (·.1) := by
    intro loc hloc
    obtain ⟨e, he, rfl⟩ := List.mem_map.1 hloc
    obtain ⟨dir, n, hdir, -⟩ := ht.entry e he
    have hne : e.1 ≠ [] := by simp [hdir]
    exact List.mem_map_of_mem (mem_of_node? hne (hk.node (node?_of_mem ht.nodup hne he)))
  simpa using (ht.nodup.subperm hsub).length_le

/-! ## Files that are found -/

/-- A walk that stands in the directory `here`, which it has reached from `root` over `names`, comes to
the file within `fuel` steps. The directories on the way are `above`. -/
inductive Finds (d : Disk) (root : Location) :
    Nat → List Location → List Text → Location → List Text → Prop
  | file {fuel above names here n bytes} (hn : d.node? (here ++ [n]) = some (.file bytes)) :
      Finds d root (fuel + 1) above names here (names ++ [n])
  | directory {fuel above names here n file} (hn : d.node? (here ++ [n]) = some .directory)
      (he : isEntered n) (w : Finds d root fuel (here :: above) (names ++ [n]) (here ++ [n]) file) :
      Finds d root (fuel + 1) above names here file
  | linkToFile {fuel above names here n target loc bytes}
      (hn : d.node? (here ++ [n]) = some (.link target))
      (hf : d.followFrom maxLinks [] (root ++ (names ++ [n])) = .ok (.file loc bytes)) :
      Finds d root (fuel + 1) above names here (names ++ [n])
  | linkToDirectory {fuel above names here n target there file}
      (hn : d.node? (here ++ [n]) = some (.link target))
      (hf : d.followFrom maxLinks [] (root ++ (names ++ [n])) = .ok (.directory there))
      (he : isEntered n) (hnew : there ∉ here :: above)
      (w : Finds d root fuel (here :: above) (names ++ [n]) there file) :
      Finds d root (fuel + 1) above names here file

theorem IsTree.mem_children_iff (ht : d.IsTree) {node : Node} :
    (n, node) ∈ d.children here ↔ d.node? (here ++ [n]) = some node := by
  rw [mem_children]
  exact ⟨node?_of_mem ht.nodup (by simp), mem_of_node? (by simp)⟩

/-- A walk yields the files that it finds. -/
theorem IsTree.mem_filesFrom_iff (ht : d.IsTree) {fuel : Nat} {above : List Location} :
    file ∈ d.filesFrom root fuel above names here ↔ Finds d root fuel above names here file := by
  induction fuel generalizing above names here with
  | zero =>
    constructor
    · intro h
      simp [filesFrom] at h
    · intro h
      cases h
  | succ fuel ih =>
    rw [filesFrom_succ, List.mem_flatMap]
    constructor
    · rintro ⟨⟨n, node⟩, hc, hf⟩
      rw [ht.mem_children_iff] at hc
      unfold childFiles at hf
      split at hf
      · obtain rfl := List.mem_singleton.1 hf
        obtain rfl : node = _ := ‹_›
        exact .file hc
      · obtain rfl : node = _ := ‹_›
        split at hf
        · exact .directory hc ‹_› (ih.1 hf)
        · simp at hf
      · obtain rfl : node = _ := ‹_›
        split at hf
        · obtain rfl := List.mem_singleton.1 hf
          exact .linkToFile hc ‹_›
        · split at hf
          · rename_i he
            rw [Bool.and_eq_true] at he
            exact .linkToDirectory hc ‹_› he.1 (by simpa using he.2) (ih.1 hf)
          · simp at hf
        · simp at hf
    · intro h
      cases h with
      | file hn => exact ⟨_, ht.mem_children_iff.2 hn, by simp [childFiles]⟩
      | directory hn he w =>
        refine ⟨_, ht.mem_children_iff.2 hn, ?_⟩
        simpa only [childFiles, he, if_true] using ih.2 w
      | linkToFile hn hf => exact ⟨_, ht.mem_children_iff.2 hn, by simp [childFiles, hf]⟩
      | @linkToDirectory _ _ _ _ n _ there _ hn hf he hnew w =>
        refine ⟨_, ht.mem_children_iff.2 hn, ?_⟩
        have hopen : (isEntered n && !(here :: above).contains there) = true := by
          rw [Bool.and_eq_true]
          exact ⟨he, by simpa using hnew⟩
        simpa only [childFiles, hf, hopen, if_true] using ih.2 w

/-- A file is found again when nodes are added and more steps are taken. -/
theorem Finds.mono {fuel fuel' : Nat} {above : List Location}
    (h : Finds d root fuel above names here file) (hk : d.Keeps d') (hle : fuel ≤ fuel') :
    Finds d' root fuel' above names here file := by
  induction h generalizing fuel' with
  | file hn =>
    obtain ⟨fuel', rfl⟩ := Nat.exists_eq_add_of_le' (Nat.le_of_add_left_le hle)
    exact .file (hk.node hn)
  | directory hn he _ ih =>
    obtain ⟨fuel', rfl⟩ := Nat.exists_eq_add_of_le' (Nat.le_of_add_left_le hle)
    exact .directory (hk.node hn) he (ih (Nat.le_of_succ_le_succ hle))
  | linkToFile hn hf =>
    obtain ⟨fuel', rfl⟩ := Nat.exists_eq_add_of_le' (Nat.le_of_add_left_le hle)
    exact .linkToFile (hk.node hn) ((hk.followFrom_eq (by rw [hf]; trivial)).trans hf)
  | linkToDirectory hn hf he hnew _ ih =>
    obtain ⟨fuel', rfl⟩ := Nat.exists_eq_add_of_le' (Nat.le_of_add_left_le hle)
    exact .linkToDirectory (hk.node hn) ((hk.followFrom_eq (by rw [hf]; trivial)).trans hf) he hnew
      (ih (Nat.le_of_succ_le_succ hle))

theorem Keeps.files_subset (hk : d.Keeps d') (ht : d.IsTree) (ht' : d'.IsTree) (root : Location) :
    d.files root ⊆ d'.files root := by
  intro file hf
  unfold files at hf ⊢
  split at hf
  · rename_i hn
    rw [hk.node hn]
    exact hf
  · rename_i hn
    rw [hk.node hn]
    have hle := hk.length_le ht
    have hdepth : d.maxDepth ≤ d'.maxDepth := Nat.mul_le_mul (by omega) (by omega)
    exact ht'.mem_filesFrom_iff.2 ((ht.mem_filesFrom_iff.1 hf).mono hk hdepth)
  · simp at hf

/-! ## The path of a file -/

/-- The pieces lead from the root to the directory `loc`, or one of them is too long for any path. -/
def Reaches (d : Disk) (ps : List Text) (loc : Location) : Prop :=
  Way d maxLinks [] ps loc ∨ ∀ qs, d.followFrom maxLinks [] (ps ++ qs) = .error .nameTooLong

/-- The pieces lead from the root to a file, or one of them is too long for any path. -/
def ReachesFile (d : Disk) (ps : List Text) : Prop :=
  (∃ loc bytes, d.followFrom maxLinks [] ps = .ok (.file loc bytes)) ∨
    d.followFrom maxLinks [] ps = .error .nameTooLong

theorem Reaches.directory (h : d.Reaches ps here) (hn : Path.IsName n)
    (hd : d.node? (here ++ [n]) = some .directory) : d.Reaches (ps ++ [n]) (here ++ [n]) := by
  rcases h with w | h
  · by_cases hl : maxName < byteLength n
    · obtain ⟨links, hf⟩ := w.followFrom_append
      refine .inr fun qs => ?_
      rw [List.append_assoc, hf, List.singleton_append, followFrom,
        if_neg (Path.isStep_iff.1 hn.isStep), if_neg hn.ne_parent, if_pos hl]
    · exact .inl (w.concat ⟨Path.isStep_iff.1 hn.isStep, hn.ne_parent, hl⟩ hd)
  · refine .inr fun qs => ?_
    rw [List.append_assoc]
    exact h _

theorem Reaches.reachesFile (h : d.Reaches ps here) (hn : Path.IsName n) {bytes : ByteArray}
    (hf : d.node? (here ++ [n]) = some (.file bytes)) : d.ReachesFile (ps ++ [n]) := by
  rcases h with w | h
  · obtain ⟨links, he⟩ := w.followFrom_append
    by_cases hl : maxName < byteLength n
    · exact .inr ((he [n]).trans (followFrom_long hn hl))
    · exact .inl ⟨_, _, (he [n]).trans (followFrom_file hn hl hf)⟩
  · exact .inr (h [n])

theorem IsTree.isName_of_node? (ht : d.IsTree) {node : Node}
    (h : d.node? (loc ++ [n]) = some node) : Path.IsName n :=
  ht.isName_of_mem_children (ht.mem_children_iff.2 h)

theorem IsTree.forall_isName (ht : d.IsTree) (hs : (d.node? loc).isSome) :
    ∀ n ∈ loc, Path.IsName n := by
  induction loc using List.reverseRecOn with
  | nil => simp
  | append_singleton loc n ih =>
    intro m hm
    rcases List.mem_append.1 hm with hm | hm
    · exact ih (by simp [ht.directory_above hs]) m hm
    · obtain ⟨node, hnode⟩ := Option.isSome_iff_exists.1 hs
      rw [List.mem_singleton.1 hm]
      exact ht.isName_of_node? hnode

/-- On a tree the names of a directory lead to it. -/
theorem IsTree.reaches (ht : d.IsTree) (hd : d.node? loc = some .directory) : d.Reaches loc loc := by
  induction loc using List.reverseRecOn with
  | nil => exact .inl .done
  | append_singleton loc n ih =>
    have hs : (d.node? (loc ++ [n])).isSome := by simp [hd]
    exact (ih (ht.directory_above hs)).directory (ht.isName_of_node? hd) hd

/-- A file that is found can be reached by the names over which it is found. -/
theorem Finds.reachesFile (ht : d.IsTree) {fuel : Nat} {above : List Location}
    (h : Finds d root fuel above names here file) (hr : d.Reaches (root ++ names) here) :
    d.ReachesFile (root ++ file) := by
  induction h with
  | file hn =>
    rw [← List.append_assoc]
    exact hr.reachesFile (ht.isName_of_node? hn) hn
  | directory hn _ _ ih =>
    refine ih ?_
    rw [← List.append_assoc]
    exact hr.directory (ht.isName_of_node? hn) hn
  | linkToFile _ hf => exact .inl ⟨_, _, hf⟩
  | linkToDirectory _ hf _ _ _ ih => exact ih (.inl (.of_followFrom hf))

theorem IsTree.reachesFile_of_mem_files (ht : d.IsTree) (hf : names ∈ d.files root) :
    d.ReachesFile (root ++ names) := by
  unfold files at hf
  split at hf
  · rename_i bytes hn
    rw [List.mem_singleton.1 hf, List.append_nil]
    obtain ⟨dir, n, hroot, hname, hd⟩ := ht.entry _ (mem_of_node? (ne_nil_of_node? hn (by simp)) hn)
    rw [show root = dir ++ [n] from hroot] at hn ⊢
    exact (ht.reaches hd).reachesFile hname hn
  · rename_i hd
    refine (ht.mem_filesFrom_iff.1 hf).reachesFile ht ?_
    rw [List.append_nil]
    exact ht.reaches hd
  · simp at hf

/-- The path of a location is followed by its names. -/
theorem follow_path (h : ∀ n ∈ loc, Path.IsName n) :
    d.follow loc.path = d.followFrom maxLinks [] loc := by
  have hsplit : splitWhen (· == '/') loc.path = [] :: splitWhen (· == '/') (joinWith ['/'] loc) :=
    splitWhen_cons_of_pos (by simp) _
  rw [follow_eq (by simp [Location.path]), hsplit, followFrom_skip (.inl rfl)]
  cases loc with
  | nil => exact followFrom_skip (.inl rfl)
  | cons n loc =>
    rw [splitWhen_joinWith fun m hm => (h m hm).slash]
    rfl

/-- All names on the way to a file are proper ones, those above the root of the walk too. -/
theorem IsTree.isName_source (ht : d.IsTree) (hf : names ∈ d.files root) :
    ∀ n ∈ root ++ names, Path.IsName n := by
  have hroot : (d.node? root).isSome := by
    unfold files at hf
    split at hf
    · simp [*]
    · simp [*]
    · simp at hf
  intro n hn
  rcases List.mem_append.1 hn with hn | hn
  · exact ht.forall_isName hroot n hn
  · exact ht.isName_of_mem_files hf n hn

theorem IsTree.follow_of_mem_files (ht : d.IsTree) (hf : names ∈ d.files root) :
    (∃ loc bytes, d.follow (sourcePath root names) = .ok (.file loc bytes)) ∨
      d.follow (sourcePath root names) = .error .nameTooLong := by
  rw [sourcePath, follow_path (ht.isName_source hf)]
  exact ht.reachesFile_of_mem_files hf

/-- The path of a file that is found leads where it led when nodes are added. -/
theorem Keeps.follow_source (hk : d.Keeps d') (ht : d.IsTree) (hf : names ∈ d.files root) :
    d'.follow (sourcePath root names) = d.follow (sourcePath root names) := by
  apply hk.follow_eq
  rcases ht.follow_of_mem_files hf with ⟨loc, bytes, h⟩ | h
  · rw [h]
    trivial
  · rw [h]
    trivial

/-! ## Trees without links -/

/-- No link lies on the disk. -/
def NoLinks (d : Disk) : Prop := ∀ l target, d.node? l ≠ some (.link target)

theorem noLinks_of_nodes (h : ∀ e ∈ d.nodes, ∀ target, e.2 ≠ .link target) : d.NoLinks := by
  intro l target hl
  exact h _ (mem_of_node? (ne_nil_of_node? hl (by simp)) hl) target rfl

theorem NoLinks.noLinkBelow (h : d.NoLinks) (loc : Location) : d.NoLinkBelow loc :=
  fun _ _ target => h _ target

theorem Grows.noLinks (hg : d.Grows d') (h : d.NoLinks) : d'.NoLinks :=
  fun l target hl => h l target (hg.link_of hl)

/-- Without links a walk finds files where their names say, in directories that it enters. -/
theorem Finds.node?_of_noLinkBelow {fuel : Nat} {above : List Location}
    (h : Finds d root fuel above names here file) (hno : d.NoLinkBelow here) :
    ∃ rest bytes, file = names ++ rest ∧ d.node? (here ++ rest) = some (.file bytes) ∧
      ∀ n ∈ rest.dropLast, isEntered n := by
  induction h with
  | file hn => exact ⟨[_], _, rfl, hn, by simp⟩
  | @directory _ _ names here n _ _ he _ ih =>
    obtain ⟨rest, bytes, rfl, hf, hr⟩ := ih (hno.below [n])
    refine ⟨n :: rest, bytes, by simp, by simpa using hf, fun m hm => ?_⟩
    cases rest with
    | nil => simp at hm
    | cons k rest =>
      rcases List.mem_cons.1 hm with rfl | hm
      · exact he
      · exact hr m hm
  | linkToFile hn => exact absurd hn (hno _ (by simp) _)
  | linkToDirectory hn => exact absurd hn (hno _ (by simp) _)

theorem IsTree.directory_above_append (ht : d.IsTree) {rest : List Text} (hne : rest ≠ [])
    (hs : (d.node? (here ++ rest)).isSome) : d.node? here = some .directory := by
  induction rest using List.reverseRecOn with
  | nil => exact absurd rfl hne
  | append_singleton rest n ih =>
    rw [← List.append_assoc] at hs
    have hd := ht.directory_above hs
    by_cases hnil : rest = []
    · simpa [hnil] using hd
    · exact ih hnil (by rw [hd]; rfl)

/-- A walk of a tree finds what lies in directories that it enters. -/
theorem IsTree.finds (ht : d.IsTree) (root : Location) {fuel : Nat} (above : List Location)
    (names : List Text) {rest : List Text} {bytes : ByteArray} (hne : rest ≠ [])
    (hf : d.node? (here ++ rest) = some (.file bytes)) (he : ∀ n ∈ rest.dropLast, isEntered n)
    (hfuel : rest.length ≤ fuel) : Finds d root fuel above names here (names ++ rest) := by
  induction rest generalizing here names above fuel with
  | nil => exact absurd rfl hne
  | cons n rest ih =>
    obtain ⟨fuel, rfl⟩ : ∃ k, fuel = k + 1 := ⟨fuel - 1, by simp at hfuel; omega⟩
    cases rest with
    | nil => exact .file hf
    | cons m rest =>
      have hf' : d.node? (here ++ [n] ++ (m :: rest)) = some (.file bytes) := by simpa using hf
      have hn : d.node? (here ++ [n]) = some .directory :=
        ht.directory_above_append (List.cons_ne_nil m rest) (by rw [hf']; rfl)
      have hrest := ih (here :: above) (names ++ [n]) (by simp) hf'
        (fun k hk => he k (List.mem_cons_of_mem _ hk)) (by simpa using hfuel)
      rw [List.append_assoc] at hrest
      exact .directory hn (he n (by simp)) hrest

/-- A tree is no deeper than it has nodes. -/
theorem IsTree.length_le (ht : d.IsTree) (hs : (d.node? loc).isSome) :
    loc.length ≤ d.nodes.length := by
  have hnodup : ((List.range loc.length).map fun i => loc.take (i + 1)).Nodup := by
    refine List.Nodup.map_on (fun i hi k hk he => ?_) List.nodup_range
    have hlen := congrArg List.length he
    rw [List.mem_range] at hi hk
    simp only [List.length_take] at hlen
    omega
  have hsub : ((List.range loc.length).map fun i => loc.take (i + 1)) ⊆ d.nodes.map (·.1) := by
    intro l hl
    obtain ⟨i, hi, rfl⟩ := List.mem_map.1 hl
    have hne : loc.take (i + 1) ≠ [] := by
      intro h
      rw [List.mem_range] at hi
      simp only [List.take_eq_nil_iff, Nat.add_eq_zero_iff] at h
      rcases h with h | h
      · omega
      · simp [h] at hi
    obtain ⟨node, hnode⟩ : ∃ node, d.node? (loc.take (i + 1)) = some node := by
      by_cases hdrop : loc.drop (i + 1) = []
      · rw [List.take_of_length_le (List.drop_eq_nil_iff.1 hdrop)]
        exact Option.isSome_iff_exists.1 hs
      · exact ⟨_, ht.directory_above_append hdrop (by rwa [List.take_append_drop])⟩
    exact List.mem_map_of_mem (mem_of_node? hne hnode)
  simpa using (hnodup.subperm hsub).length_le

/-- The files that a walk of a tree without links yields. -/
theorem IsTree.mem_files_iff (ht : d.IsTree) (hno : d.NoLinkBelow root) :
    names ∈ d.files root ↔
      (∃ bytes, d.node? (root ++ names) = some (.file bytes)) ∧ ∀ n ∈ names.dropLast, isEntered n := by
  constructor
  · intro h
    unfold files at h
    split at h
    · rename_i bytes hn
      rw [List.mem_singleton.1 h, List.append_nil]
      exact ⟨⟨bytes, hn⟩, by simp⟩
    · obtain ⟨rest, bytes, rfl, hf, he⟩ := (ht.mem_filesFrom_iff.1 h).node?_of_noLinkBelow hno
      exact ⟨⟨bytes, hf⟩, he⟩
    · simp at h
  · rintro ⟨⟨bytes, hf⟩, he⟩
    unfold files
    by_cases hnil : names = []
    · subst hnil
      rw [List.append_nil] at hf
      rw [hf]
      exact List.mem_singleton.2 rfl
    · have hs : (d.node? (root ++ names)).isSome := by rw [hf]; rfl
      rw [ht.directory_above_append hnil hs]
      refine ht.mem_filesFrom_iff.2 (ht.finds root [] [] hnil hf he ?_)
      have hlen := ht.length_le hs
      have hsq : d.nodes.length + 1 ≤ d.maxDepth := Nat.le_mul_self _
      rw [List.length_append] at hlen
      omega

/-- One of the names is too long for a path. -/
def HasLongName (loc : Location) : Prop := ∃ n ∈ loc, maxName < byteLength n

instance (loc : Location) : Decidable (HasLongName loc) :=
  inferInstanceAs (Decidable (∃ n ∈ loc, maxName < byteLength n))

theorem hasLongName_concat : HasLongName (loc ++ [n]) ↔ HasLongName loc ∨ maxName < byteLength n := by
  simp [HasLongName, or_and_right, exists_or]

/-- The names of a directory lead to it, unless one of them is too long. -/
theorem IsTree.followFrom_directory (ht : d.IsTree) (hd : d.node? loc = some .directory)
    (qs : List Text) : d.followFrom links [] (loc ++ qs) =
      if HasLongName loc then .error .nameTooLong else d.followFrom links loc qs := by
  induction loc using List.reverseRecOn generalizing qs with
  | nil => simp [HasLongName]
  | append_singleton loc n ih =>
    have hn := ht.isName_of_node? hd
    have hstep := Path.isStep_iff.1 hn.isStep
    rw [List.append_assoc, ih (ht.directory_above (n := n) (by rw [hd]; rfl)), List.singleton_append]
    by_cases hl : maxName < byteLength n
    · rw [followFrom, if_neg hstep, if_neg hn.ne_parent, if_pos hl]
      simp [hasLongName_concat, hl]
    · rw [followFrom_enter ⟨hstep, hn.ne_parent, hl⟩ hd]
      simp [hasLongName_concat, hl]

/-- What the path of a file leads to depends on the file alone. -/
theorem IsTree.follow_path_of_file (ht : d.IsTree) {bytes : ByteArray}
    (hf : d.node? loc = some (.file bytes)) :
    d.follow loc.path =
      if HasLongName loc then .error .nameTooLong else .ok (.file loc bytes) := by
  rw [follow_path (ht.forall_isName (by rw [hf]; rfl))]
  obtain ⟨dir, n, hloc, hn, hd⟩ := ht.entry _ (mem_of_node? (ne_nil_of_node? hf (by simp)) hf)
  rw [show loc = dir ++ [n] from hloc] at hf ⊢
  rw [ht.followFrom_directory hd]
  by_cases hl : maxName < byteLength n
  · rw [followFrom_long hn hl]
    simp [hasLongName_concat, hl]
  · rw [followFrom_file hn hl hf]
    simp [hasLongName_concat, hl]

end Disk

end Bookbinder
