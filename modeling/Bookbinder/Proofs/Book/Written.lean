import Bookbinder.Proofs.Book.Plan
import Bookbinder.Proofs.Disk.Evaluation
import Bookbinder.Proofs.Disk.Growth
import Mathlib.Data.List.Induction
import Mathlib.Data.List.Nodup

/-!
# What a run of actions leaves

A run that comes to its end leaves every path that was written leading to a file, and that file holds a
text that was written to a path which leads there (`Action.runAll_leaves`). Links may let two paths lead
to one file, and then one text is lost. Below a directory without links every path has a file of its own
(`Action.Leaves.readText`). On a given disk a computation shows what a run leaves
(`Action.runAll_of_within`).
-/

namespace Bookbinder

namespace Action

def written? : Action → Option (Path × Text)
  | makeDirectories _ => none
  | write p t => some (p, t)

/-- The texts that are written, with their paths. -/
def writes (as : List Action) : List (Path × Text) := as.filterMap written?

/-- The file at the location has a text that was written to a path which leads there. -/
def Holds (d : Disk) (ws : List (Path × Text)) (loc : Location) : Prop :=
  ∃ w ∈ ws, d.follow w.1 = .ok (.file loc (Disk.encode w.2))

/-- A run that wrote `ws` leads from `d` to `d'`. -/
structure Leaves (ws : List (Path × Text)) (d d' : Disk) : Prop where
  grows : d.Grows d'
  /-- Every written path leads to a file with a text that was written. -/
  written : ∀ w ∈ ws, ∃ loc bytes, d'.follow w.1 = .ok (.file loc bytes) ∧ Holds d' ws loc
  /-- All other nodes are the old ones and new directories. -/
  node : ∀ l, d'.node? l = d.node? l ∨ (d.node? l = none ∧ d'.node? l = some .directory) ∨
    Holds d' ws l

theorem writes_append (as as' : List Action) : writes (as ++ as') = writes as ++ writes as' :=
  List.filterMap_append

theorem writes_actions (out : Path) (es : Plan) :
    writes (Plan.actions out es) = es.pages.map fun f => (Plan.pathOf out f.1, f.2) := by
  rw [writes, Plan.actions, List.filterMap_map, Plan.pages, List.map_filterMap]
  congr 1
  funext e
  obtain ⟨key, x⟩ := e
  cases x with
  | directory => rfl
  | page t => rfl

section Runs

variable {d d' d'' : Disk} {ws ws' : List (Path × Text)} {loc : Location} {a : Action}
  {as : List Action}

theorem Holds.node? (h : Holds d ws loc) : ∃ w ∈ ws, d.node? loc = some (.file (Disk.encode w.2)) := by
  obtain ⟨w, hw, hf⟩ := h
  exact ⟨w, hw, Disk.node?_of_follow_file hf⟩

theorem Holds.mono (h : Holds d ws loc) (hs : ws ⊆ ws') : Holds d ws' loc := by
  obtain ⟨w, hw, hf⟩ := h
  exact ⟨w, hs hw, hf⟩

/-- A text stays in its file until another is written there. -/
theorem Holds.append (h : Holds d' ws loc) (h' : Leaves ws' d' d'') : Holds d'' (ws ++ ws') loc := by
  obtain ⟨w, hw, hf⟩ := h
  have hn := Disk.node?_of_follow_file hf
  rcases h'.node loc with he | ⟨hnone, -⟩ | hh
  · refine ⟨w, List.mem_append_left _ hw, ?_⟩
    exact Disk.follow_of_file hf rfl h'.grows.toKeepsWays (he.trans hn)
  · simp [hn] at hnone
  · exact hh.mono (List.subset_append_right ..)

theorem Leaves.refl (d : Disk) : Leaves [] d d :=
  ⟨.refl d, by simp, fun _ => .inl rfl⟩

theorem Leaves.append (h : Leaves ws d d') (h' : Leaves ws' d' d'') : Leaves (ws ++ ws') d d'' := by
  refine ⟨h.grows.trans h'.grows, ?_, ?_⟩
  · intro w hw
    rcases List.mem_append.1 hw with hw | hw
    · obtain ⟨loc, bytes, hf, hh⟩ := h.written w hw
      obtain ⟨bytes', hf⟩ := h'.grows.follow_file hf
      exact ⟨loc, bytes', hf, hh.append h'⟩
    · obtain ⟨loc, bytes, hf, hh⟩ := h'.written w hw
      exact ⟨loc, bytes, hf, hh.mono (List.subset_append_right ..)⟩
  · intro l
    rcases h'.node l with he' | ⟨hn, hd⟩ | hh
    · rcases h.node l with he | ⟨hn, hd⟩ | hh
      · exact .inl (he'.trans he)
      · exact .inr (.inl ⟨hn, he'.trans hd⟩)
      · exact .inr (.inr (hh.append h'))
    · rcases h.node l with he | ⟨-, hd'⟩ | hh
      · exact .inr (.inl ⟨he ▸ hn, hd⟩)
      · simp [hn] at hd'
      · obtain ⟨w, -, hf⟩ := hh.node?
        simp [hn] at hf
    · exact .inr (.inr (hh.mono (List.subset_append_right ..)))

theorem writeText_of_run {p : Path} {t : Text} (h : (write p t).run d = (d', none)) :
    d.writeText p t = .ok d' := by
  simp only [run] at h
  split at h
  · cases h
    assumption
  · simp at h

theorem run_leaves (h : a.run d = (d', none)) : Leaves (writes [a]) d d' := by
  cases a with
  | makeDirectories p =>
    have hd := d.ensureDirectories_adds p.components
    rw [run] at h
    rw [h] at hd
    exact ⟨hd.grows, by simp [writes, written?], fun l => (hd.node l).imp_right .inl⟩
  | write p t =>
    obtain ⟨loc, hg, hf, hn⟩ := Disk.writeText_ok (writeText_of_run h)
    have hh : Holds d' (writes [.write p t]) loc := ⟨(p, t), by simp [writes, written?], hf⟩
    refine ⟨hg, ?_, fun l => ?_⟩
    · intro w hw
      have he : w = (p, t) := by simpa [writes, written?] using hw
      rw [he]
      exact ⟨loc, _, hf, hh⟩
    · by_cases he : l = loc
      · exact .inr (.inr (he ▸ hh))
      · exact .inl (hn l he)

theorem runAll_cons_ok (h : runAll d (a :: as) = (d', none)) :
    ∃ d₁, a.run d = (d₁, none) ∧ runAll d₁ as = (d', none) := by
  rw [runAll] at h
  split at h
  · exact ⟨_, ‹_›, h⟩
  · rename_i hne
    exact absurd h (hne d')

theorem runAll_leaves (h : runAll d as = (d', none)) : Leaves (writes as) d d' := by
  induction as generalizing d with
  | nil =>
    cases h
    exact .refl _
  | cons a as ih =>
    obtain ⟨d₁, ha, has⟩ := runAll_cons_ok h
    have hw : writes (a :: as) = writes [a] ++ writes as := writes_append [a] as
    rw [hw]
    exact (run_leaves ha).append (ih has)

/-! ## Directories without links -/

variable {out : Path} {dir : Location}

open Plan (pathOf pathOf_concat)

theorem leadsTo_pathOf_eq (h : d.LeadsTo out loc) (hl : d.NoLinkBelow loc)
    (hn : ∀ n ∈ dir, Path.IsName n) {l : Location} (hd : d.LeadsTo (pathOf out dir) l) :
    l = loc ++ dir := by
  induction dir using List.reverseRecOn generalizing l with
  | nil => rw [List.append_nil, h.unique hd]
  | append_singleton dir n ih =>
    rw [pathOf_concat] at hd
    obtain ⟨l₀, hl₀⟩ := Disk.exists_leadsTo_of_follow_join (hn n (by simp))
      (hd.follow (Path.join_ne_nil _ (hn n (by simp))))
    have he := ih (fun m hm => hn m (by simp [hm])) hl₀
    subst he
    rw [hl₀.eq_of_leadsTo_join (hn n (by simp)) (hl.below dir) hd, List.append_assoc]

/-- A file below a directory without links lies at the names of its path. -/
theorem follow_pathOf_eq (h : d.LeadsTo out loc) (hl : d.NoLinkBelow loc) {key : Location}
    (hk : Path.AreNames key) {l : Location} {bytes : ByteArray}
    (hf : d.follow (pathOf out key) = .ok (.file l bytes)) : l = loc ++ key := by
  obtain ⟨dir, n, rfl⟩ := (List.eq_nil_or_concat key).resolve_left hk.ne_nil
  rw [List.concat_eq_append] at *
  rw [pathOf_concat] at hf
  have hn := hk.isName
  have hname : Path.IsName n := hn n (by simp)
  obtain ⟨l₀, hl₀⟩ := Disk.exists_leadsTo_of_follow_join hname hf
  have he := leadsTo_pathOf_eq h hl (fun m hm => hn m (by simp [hm])) hl₀
  subst he
  rw [hl₀.eq_of_follow_file hname (hl.below dir) hf, List.append_assoc]

/-- Where no link lies, the path of every page leads to a file with the page. -/
theorem Leaves.follow {fs : List (Location × Text)}
    (h : Leaves (fs.map fun f => (pathOf out f.1, f.2)) d d') (hd : (fs.map (·.1)).Nodup)
    (hn : ∀ f ∈ fs, Path.AreNames f.1) (ho : d'.LeadsTo out loc)
    (hl : d'.NoLinkBelow loc) {f : Location × Text} (hf : f ∈ fs) :
    d'.follow (pathOf out f.1) = .ok (.file (loc ++ f.1) (Disk.encode f.2)) := by
  obtain ⟨l, bytes, hfollow, w, hw, hw'⟩ := h.written _ (List.mem_map_of_mem hf)
  obtain ⟨g, hg, rfl⟩ := List.mem_map.1 hw
  -- Both paths lead to the file, so both have the names of its location.
  have hlf := follow_pathOf_eq ho hl (hn f hf) hfollow
  have hlg := follow_pathOf_eq ho hl (hn g hg) hw'
  have hkey : f.1 = g.1 := List.append_cancel_left (hlf.symm.trans hlg)
  obtain rfl := List.inj_on_of_nodup_map hd hf hg hkey
  exact hlf ▸ hw'

/-- Where no link lies, every page is read at its path. -/
theorem Leaves.readText {fs : List (Location × Text)}
    (h : Leaves (fs.map fun f => (pathOf out f.1, f.2)) d d') (hd : (fs.map (·.1)).Nodup)
    (hn : ∀ f ∈ fs, Path.AreNames f.1) (ho : d'.LeadsTo out loc)
    (hl : d'.NoLinkBelow loc) {f : Location × Text} (hf : f ∈ fs) :
    d'.readText (pathOf out f.1) = .ok f.2 :=
  Disk.readText_of_follow_file (h.follow hd hn ho hl hf)

end Runs

/-! ## Computing a run -/

/-- The disk after an action that succeeds, found as by `Disk.followWithin`. -/
def runWithin (fuel : Nat) (d : Disk) : Action → Option Disk
  | makeDirectories p =>
    let comps := p.components
    if comps = [] then some d
    else
      match d.makeDirectoryWithin fuel (Path.ofComponents comps) with
      | some (.ok d') => some d'
      | some (.error .alreadyExists) =>
        match d.followWithin fuel (Path.ofComponents comps) with
        | some (.ok (.directory _)) => some d
        | _ => none
      | _ => none
  | write p t =>
    match d.followWithin fuel p with
    | some (.ok (.file loc _)) | some (.ok (.missing loc)) =>
      some (d.put loc (.file (Disk.encode t)))
    | _ => none

/-- The disk after actions in order, each as in `runWithin`. -/
def runAllWithin (fuel : Nat) (d : Disk) : List Action → Option Disk
  | [] => some d
  | a :: as => (runWithin fuel d a).bind (runAllWithin fuel · as)

section Within

variable {d d' : Disk}

theorem run_of_within (fuel : Nat) {a : Action} (h : runWithin fuel d a = some d') :
    a.run d = (d', none) := by
  cases a with
  | makeDirectories p =>
    rw [runWithin] at h
    rw [run, Disk.ensureDirectories]
    by_cases hnil : p.components = []
    · rw [if_pos hnil] at h ⊢
      rw [Option.some.inj h]
    rw [if_neg hnil] at h ⊢
    split at h
    · rename_i hm
      rw [Disk.makeDirectory_of_within fuel hm, Option.some.inj h]
    · rename_i hm
      rw [Disk.makeDirectory_of_within fuel hm]
      split at h
      · rename_i hf
        simp only [Disk.isDirectory, Disk.follow_of_within fuel hf, if_true]
        rw [Option.some.inj h]
      · cases h
    · cases h
  | write p t =>
    rw [runWithin] at h
    rw [run, Disk.writeText]
    split at h
    · rename_i hf
      obtain rfl := Option.some.inj h
      rw [Disk.follow_of_within fuel hf]
    · rename_i hf
      obtain rfl := Option.some.inj h
      rw [Disk.follow_of_within fuel hf]
    · cases h

theorem runAll_of_within (fuel : Nat) {as : List Action} (h : runAllWithin fuel d as = some d') :
    runAll d as = (d', none) := by
  induction as generalizing d with
  | nil => rw [runAll, Option.some.inj h]
  | cons a as ih =>
    obtain ⟨d₁, ha, has⟩ := Option.bind_eq_some_iff.1 h
    rw [runAll, run_of_within fuel ha]
    exact ih has

end Within

end Action

end Bookbinder
