import Bookbinder.Analysis.Discovery
import Bookbinder.Proofs.Disk.Following
import Mathlib.Data.List.Perm.Basic

/-!
# Disks as trees

A disk lists its nodes in some order, and a directory lists its entries in that order. Where no location
has two nodes, what a disk answers does not depend on the order: disks that have the same nodes
(`Disk.Agree`) answer every path alike (`Agree.follow_eq`), and in disks that list them once
(`Disk.SameNodes`) a walk finds the same files, in some order (`SameNodes.files_perm`). A disk is a tree
(`Disk.IsTree`) if besides every node lies in a directory under a proper name; a walk of a tree yields
every file once (`IsTree.nodup_files`).
-/

namespace Bookbinder

namespace Disk

/-! ## Nodes and entries -/

theorem lookup_of_mem {nodes : List (Location × Node)} (hd : (nodes.map (·.1)).Nodup)
    {e : Location × Node} (h : e ∈ nodes) : nodes.lookup e.1 = some e.2 := by
  induction nodes with
  | nil => simp at h
  | cons e' nodes ih =>
    rw [List.map_cons, List.nodup_cons] at hd
    rcases List.mem_cons.1 h with rfl | h
    · exact List.lookup_cons_self
    · have hne : (e.1 == e'.1) = false := by
        rw [beq_eq_false_iff_ne]
        intro he
        exact hd.1 (he ▸ List.mem_map_of_mem h)
      rw [List.lookup_cons, hne]
      exact ih hd.2 h

theorem node?_of_mem {d : Disk} (hd : (d.nodes.map (·.1)).Nodup) {loc : Location} {n : Node}
    (hne : loc ≠ []) (h : (loc, n) ∈ d.nodes) : d.node? loc = some n := by
  rw [node?, if_neg hne]
  exact lookup_of_mem hd h

theorem mem_of_node? {d : Disk} {loc : Location} {n : Node} (hne : loc ≠ [])
    (h : d.node? loc = some n) : (loc, n) ∈ d.nodes := by
  rw [node?, if_neg hne] at h
  obtain ⟨l, l', hl, -⟩ := List.lookup_eq_some_iff.1 h
  simp [hl]

/-- An entry of a directory is a node one name below it. -/
theorem child_eq_some_iff {dir : Location} {e : Location × Node} {c : Text × Node} :
    (match e.1.getLast? with
      | some name => if e.1.dropLast = dir then some (name, e.2) else none
      | none => none) = some c ↔ e = (dir ++ [c.1], c.2) := by
  constructor
  · intro h
    split at h
    · rename_i last hlast
      obtain ⟨dir', he⟩ := List.getLast?_eq_some_iff.1 hlast
      rw [he, List.dropLast_concat] at h
      split at h
      · rename_i hdir
        cases h
        exact Prod.ext (hdir ▸ he) rfl
      · simp at h
    · simp at h
  · rintro rfl
    simp

theorem mem_children {d : Disk} {dir : Location} {name : Text} {n : Node} :
    (name, n) ∈ d.children dir ↔ (dir ++ [name], n) ∈ d.nodes := by
  rw [children, List.mem_filterMap]
  constructor
  · rintro ⟨e, he, hc⟩
    exact child_eq_some_iff.1 hc ▸ he
  · intro h
    exact ⟨_, h, child_eq_some_iff.2 rfl⟩

/-- The locations of the entries of a directory are among those of the nodes, each as often. -/
theorem map_children_sublist (d : Disk) (dir : Location) :
    ((d.children dir).map fun c => dir ++ [c.1]).Sublist (d.nodes.map (·.1)) := by
  unfold children
  induction d.nodes with
  | nil => exact .slnil
  | cons e nodes ih =>
    rw [List.filterMap_cons, List.map_cons]
    split
    · exact ih.cons e.1
    · rename_i c hc
      rw [List.map_cons, child_eq_some_iff.1 hc]
      exact ih.cons_cons _

/-! ## Walks -/

/-- The files that a walk of `here` finds at one entry. -/
def childFiles (d : Disk) (root : Location) (fuel : Nat) (above : List Location) (names : List Text)
    (here : Location) (child : Text × Node) : List (List Text) :=
  match child.2 with
  | .file _ => [names ++ [child.1]]
  | .directory =>
    if isEntered child.1 then
      d.filesFrom root fuel (here :: above) (names ++ [child.1]) (here ++ [child.1])
    else []
  | .link _ =>
    match d.followFrom maxLinks [] (root ++ (names ++ [child.1])) with
    | .ok (.file ..) => [names ++ [child.1]]
    | .ok (.directory there) =>
      if isEntered child.1 && !(here :: above).contains there then
        d.filesFrom root fuel (here :: above) (names ++ [child.1]) there
      else []
    | _ => []

theorem filesFrom_succ (d : Disk) (root : Location) (fuel : Nat) (above : List Location)
    (names : List Text) (here : Location) :
    d.filesFrom root (fuel + 1) above names here =
      (d.children here).flatMap (d.childFiles root fuel above names here) := rfl

/-- At an entry a walk finds the entry itself, files of a directory below it, or nothing. -/
theorem childFiles_cases (d : Disk) (root : Location) (fuel : Nat) (above : List Location)
    (names : List Text) (here : Location) (child : Text × Node) :
    d.childFiles root fuel above names here child = [names ++ [child.1]] ∨
      (∃ there, d.childFiles root fuel above names here child =
        d.filesFrom root fuel (here :: above) (names ++ [child.1]) there) ∨
      d.childFiles root fuel above names here child = [] := by
  unfold childFiles
  split
  · exact .inl rfl
  · split
    · exact .inr (.inl ⟨_, rfl⟩)
    · exact .inr (.inr rfl)
  · split
    · exact .inl rfl
    · split
      · exact .inr (.inl ⟨_, rfl⟩)
      · exact .inr (.inr rfl)
    · exact .inr (.inr rfl)

/-! ## Disks that agree -/

/-- The disks have the same node at every location, whatever order they list their nodes in. -/
structure Agree (d d' : Disk) : Prop where
  workDir : d'.workDir = d.workDir
  node : ∀ l, d'.node? l = d.node? l

namespace Agree

variable {d d' d'' : Disk}

theorem refl (d : Disk) : Agree d d := ⟨rfl, fun _ => rfl⟩

theorem trans (h : Agree d d') (h' : Agree d' d'') : Agree d d'' :=
  ⟨h'.workDir.trans h.workDir, fun l => (h'.node l).trans (h.node l)⟩

theorem followFrom_eq (h : Agree d d') (links : Nat) (here : Location) (pieces : List Text) :
    d'.followFrom links here pieces = d.followFrom links here pieces := by
  -- One lookup per step, and every lookup has the same answer.
  fun_induction followFrom d links here pieces with
  | case1 => rw [followFrom]
  | case2 _ _ _ _ hp ih => rw [followFrom_skip hp, ih]
  | case3 _ _ _ _ ih => rw [followFrom_parent, ih]
  | case4 _ _ _ _ hs hn hl => rw [followFrom, if_neg hs, if_neg hn, if_pos hl]
  | case5 _ _ _ hs hn hl _ hd =>
    rw [followFrom_entry ⟨hs, hn, hl⟩, (h.node _).trans hd]
    rfl
  | case6 _ _ _ _ hs hn hl _ hd hr =>
    rw [followFrom_entry ⟨hs, hn, hl⟩, (h.node _).trans hd]
    exact if_neg hr
  | case7 _ _ _ _ hs hn hl _ hd ih => rw [followFrom_enter ⟨hs, hn, hl⟩ ((h.node _).trans hd), ih]
  | case8 _ _ _ hs hn hl _ _ hd =>
    rw [followFrom_entry ⟨hs, hn, hl⟩, (h.node _).trans hd]
    rfl
  | case9 _ _ _ _ hs hn hl _ _ hd hr =>
    rw [followFrom_entry ⟨hs, hn, hl⟩, (h.node _).trans hd]
    exact if_neg hr
  | case10 _ _ _ hs hn hl _ _ hd => rw [followFrom_entry ⟨hs, hn, hl⟩, (h.node _).trans hd]
  | case11 _ _ _ hs hn hl _ _ hd _ ih =>
    rw [followFrom_link ⟨hs, hn, hl⟩ ((h.node _).trans hd)]
    exact ih

/-- Every path leads to the same place. -/
theorem follow_eq (h : Agree d d') (p : Path) : d'.follow p = d.follow p := by
  rw [follow, follow, h.workDir, h.followFrom_eq]

theorem pathExists_eq (h : Agree d d') (p : Path) : d'.pathExists p = d.pathExists p := by
  rw [pathExists, pathExists, h.follow_eq]

end Agree

/-! ## Disks that list the same nodes -/

/-- The disks list the same nodes, each in an order of its own, and no location twice. -/
structure SameNodes (d d' : Disk) : Prop where
  workDir : d'.workDir = d.workDir
  nodes : d.nodes.Perm d'.nodes
  nodup : (d.nodes.map (·.1)).Nodup

namespace SameNodes

variable {d d' : Disk}

theorem nodup_right (h : SameNodes d d') : (d'.nodes.map (·.1)).Nodup :=
  (h.nodes.map (·.1)).nodup_iff.1 h.nodup

theorem node?_eq (h : SameNodes d d') (loc : Location) : d.node? loc = d'.node? loc := by
  by_cases hne : loc = []
  · rw [node?, node?, if_pos hne, if_pos hne]
  · apply Option.ext
    intro n
    constructor
    · exact fun hn => node?_of_mem h.nodup_right hne (h.nodes.mem_iff.1 (mem_of_node? hne hn))
    · exact fun hn => node?_of_mem h.nodup hne (h.nodes.mem_iff.2 (mem_of_node? hne hn))

theorem agree (h : SameNodes d d') : Agree d d' := ⟨h.workDir, fun l => (h.node?_eq l).symm⟩

theorem followFrom_eq (h : SameNodes d d') (links : Nat) (here : Location) (pieces : List Text) :
    d'.followFrom links here pieces = d.followFrom links here pieces :=
  h.agree.followFrom_eq links here pieces

theorem follow_eq (h : SameNodes d d') (p : Path) : d'.follow p = d.follow p := h.agree.follow_eq p

theorem canonical_eq (h : SameNodes d d') (p : Path) : d'.canonical p = d.canonical p := by
  rw [canonical, canonical, h.follow_eq]

theorem readText_eq (h : SameNodes d d') (p : Path) : d'.readText p = d.readText p := by
  rw [readText, readText, h.follow_eq]

theorem children_perm (h : SameNodes d d') (dir : Location) :
    (d.children dir).Perm (d'.children dir) := h.nodes.filterMap _

theorem filesFrom_perm (h : SameNodes d d') (root : Location) (fuel : Nat) (above : List Location)
    (names : List Text) (here : Location) :
    (d.filesFrom root fuel above names here).Perm (d'.filesFrom root fuel above names here) := by
  induction fuel generalizing above names here with
  | zero => exact .refl _
  | succ fuel ih =>
    rw [filesFrom_succ, filesFrom_succ]
    refine ((h.children_perm here).flatMap_right _).trans (List.Perm.flatMap_left _ fun child _ => ?_)
    rw [childFiles, childFiles, h.followFrom_eq]
    split
    · exact .refl _
    · split
      · exact ih _ _ _
      · exact .refl _
    · split
      · exact .refl _
      · split
        · exact ih _ _ _
        · exact .refl _
      · exact .refl _

/-- A walk finds the same files. -/
theorem files_perm (h : SameNodes d d') (root : Location) : (d.files root).Perm (d'.files root) := by
  have hdepth : d'.maxDepth = d.maxDepth := by rw [maxDepth, maxDepth, h.nodes.length_eq]
  rw [files, files, ← h.node?_eq, hdepth]
  split
  · exact .refl _
  · exact h.filesFrom_perm ..
  · exact .refl _

end SameNodes

/-! ## Trees -/

/-- No location has two nodes, and every node lies in a directory under a proper name. -/
structure IsTree (d : Disk) : Prop where
  nodup : (d.nodes.map (·.1)).Nodup
  entry : ∀ e ∈ d.nodes, ∃ dir n, e.1 = dir ++ [n] ∧ Path.IsName n ∧ d.node? dir = some .directory

/-- A directory lies at the location. -/
def hasDirectory (d : Disk) (loc : Location) : Bool :=
  match d.node? loc with
  | some .directory => true
  | _ => false

theorem hasDirectory_iff {d : Disk} {loc : Location} :
    d.hasDirectory loc ↔ d.node? loc = some .directory := by
  unfold hasDirectory
  split <;> simp_all

instance (d : Disk) : Decidable d.IsTree :=
  decidable_of_iff
    ((d.nodes.map (·.1)).Nodup ∧
      ∀ e ∈ d.nodes, ∃ n ∈ e.1.getLast?, Path.IsName n ∧ d.hasDirectory e.1.dropLast)
    ⟨fun ⟨hd, he⟩ => ⟨hd, fun e h => by
      obtain ⟨n, hn, hname, hdir⟩ := he e h
      obtain ⟨dir, hloc⟩ := List.getLast?_eq_some_iff.1 hn
      rw [hloc, List.dropLast_concat, hasDirectory_iff] at hdir
      exact ⟨dir, n, hloc, hname, hdir⟩⟩,
    fun h => ⟨h.nodup, fun e he => by
      obtain ⟨dir, n, hloc, hname, hdir⟩ := h.entry e he
      exact ⟨n, by simp [hloc], hname, by rwa [hloc, List.dropLast_concat, hasDirectory_iff]⟩⟩⟩

namespace IsTree

variable {d : Disk}

/-- What lies above a node is a directory. -/
theorem directory_above (h : d.IsTree) {loc : Location} {n : Text}
    (hs : (d.node? (loc ++ [n])).isSome) : d.node? loc = some .directory := by
  obtain ⟨x, hx⟩ := Option.isSome_iff_exists.1 hs
  obtain ⟨dir, m, he, -, hd⟩ := h.entry _ (mem_of_node? (by simp) hx)
  rwa [List.append_inj_left' he rfl]

theorem isName_of_mem_children (h : d.IsTree) {dir : Location} {c : Text × Node}
    (hc : c ∈ d.children dir) : Path.IsName c.1 := by
  obtain ⟨dir', n, he, hn, -⟩ := h.entry _ (mem_children.1 hc)
  rwa [(List.append_inj_right' he rfl : [c.1] = [n]) |> List.cons.inj |>.1]

theorem nodup_children (h : d.IsTree) (dir : Location) :
    (d.children dir).Pairwise fun a b => a.1 ≠ b.1 := by
  have hd := (d.map_children_sublist dir).nodup h.nodup
  rw [List.Nodup, List.pairwise_map] at hd
  exact hd.imp fun hne he => hne (by rw [he])

/-- The files found at an entry go on from its name by proper names. -/
theorem exists_of_mem_childFiles (h : d.IsTree) {root : Location} {fuel : Nat}
    {above : List Location} {names : List Text} {here : Location} {c : Text × Node}
    (hc : c ∈ d.children here) {file : List Text}
    (hf : file ∈ d.childFiles root fuel above names here c) :
    ∃ rest, file = names ++ c.1 :: rest ∧ ∀ n ∈ c.1 :: rest, Path.IsName n := by
  rcases d.childFiles_cases root fuel above names here c with he | ⟨there, he⟩ | he <;> rw [he] at hf
  · exact ⟨[], List.mem_singleton.1 hf, by simpa using h.isName_of_mem_children hc⟩
  · cases fuel with
    | zero => simp [filesFrom] at hf
    | succ fuel =>
      rw [filesFrom_succ, List.mem_flatMap] at hf
      obtain ⟨c', hc', hf⟩ := hf
      obtain ⟨rest, rfl, hrest⟩ := h.exists_of_mem_childFiles hc' hf
      refine ⟨c'.1 :: rest, by simp, List.forall_mem_cons.2 ⟨?_, hrest⟩⟩
      exact h.isName_of_mem_children hc
  · simp at hf
termination_by fuel

theorem nodup_filesFrom (h : d.IsTree) (root : Location) (fuel : Nat) (above : List Location)
    (names : List Text) (here : Location) : (d.filesFrom root fuel above names here).Nodup := by
  induction fuel generalizing above names here with
  | zero => exact List.nodup_nil
  | succ fuel ih =>
    rw [filesFrom_succ, List.Nodup, List.pairwise_flatMap]
    refine ⟨fun c _ => ?_, (h.nodup_children here).imp_of_mem fun {a b} ha hb hne file hf file' hf' => ?_⟩
    · rcases d.childFiles_cases root fuel above names here c with he | ⟨there, he⟩ | he <;> rw [he]
      · exact List.pairwise_singleton _ _
      · exact ih _ _ _
      · exact List.nodup_nil
    · -- Files at different entries differ in the name of the entry.
      obtain ⟨rest, rfl, -⟩ := h.exists_of_mem_childFiles ha hf
      obtain ⟨rest', rfl, -⟩ := h.exists_of_mem_childFiles hb hf'
      intro he
      exact hne (List.cons.inj (List.append_cancel_left he)).1

/-- A walk yields every file once. -/
theorem nodup_files (h : d.IsTree) (root : Location) : (d.files root).Nodup := by
  unfold files
  split
  · exact List.pairwise_singleton _ _
  · exact h.nodup_filesFrom ..
  · exact List.nodup_nil

/-- A walk yields files by proper names. -/
theorem isName_of_mem_files (h : d.IsTree) {root : Location} {file : List Text}
    (hf : file ∈ d.files root) : ∀ n ∈ file, Path.IsName n := by
  unfold files at hf
  split at hf
  · rw [List.mem_singleton.1 hf]
    simp
  · cases hd : d.maxDepth with
    | zero => simp [hd, filesFrom] at hf
    | succ fuel =>
      rw [hd, filesFrom_succ, List.mem_flatMap] at hf
      obtain ⟨c, hc, hf⟩ := hf
      obtain ⟨rest, rfl, hrest⟩ := h.exists_of_mem_childFiles hc hf
      exact hrest
  · simp at hf

end IsTree

end Disk

end Bookbinder
