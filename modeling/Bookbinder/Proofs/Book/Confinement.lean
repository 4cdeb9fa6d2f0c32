import Bookbinder.Proofs.Book.HomePage

/-!
# Where a book is written

Writing a book changes the files of the book and nothing else, also when it fails on the way: an action
that fails makes directories at most, so a run leaves what its first actions have written
(`Action.runAll_leaves_prefix`). If no link lies in the directory of the book, these files lie at their
places in the layout (`Book.write_changes`). A home page is among them only if there was none.
-/

namespace Bookbinder

namespace Action

variable {d d' : Disk} {a : Action}

theorem leaves_of_adds (h : d.AddsDirectories d') : Leaves [] d d' :=
  ⟨h.grows, by simp, fun l => (h.node l).imp_right .inl⟩

theorem adds_of_run_error {e : DiskError} (h : a.run d = (d', some e)) : d.AddsDirectories d' := by
  cases a with
  | makeDirectories p =>
    have hd := d.ensureDirectories_adds p.components
    rw [run] at h
    rwa [h] at hd
  | write p t =>
    simp only [run] at h
    split at h
    · simp at h
    · cases h
      exact .refl d

/-- A run leaves what its first actions have written, whether it comes to its end or not. -/
theorem runAll_leaves_prefix (d : Disk) (as : List Action) :
    ∃ ws, ws <+: writes as ∧ Leaves ws d (runAll d as).1 := by
  induction as generalizing d with
  | nil => exact ⟨[], List.nil_prefix, .refl d⟩
  | cons a as ih =>
    rcases hr : a.run d with ⟨d₁, _ | e⟩
    · obtain ⟨ws, hp, hl⟩ := ih d₁
      refine ⟨writes [a] ++ ws, ?_, ?_⟩
      · rw [show writes (a :: as) = writes [a] ++ writes as from writes_append [a] as]
        exact (List.prefix_append_right_inj _).2 hp
      · rw [runAll, hr]
        exact (run_leaves hr).append hl
    · refine ⟨[], List.nil_prefix, ?_⟩
      rw [runAll, hr]
      exact leaves_of_adds (adds_of_run_error hr)

end Action

theorem Disk.Grows.node?_eq_none {d d' : Disk} {loc : Location} (h : d.Grows d')
    (hn : d'.node? loc = none) : d.node? loc = none := by
  cases hd : d.node? loc with
  | none => rfl
  | some node =>
    cases node with
    | file bytes =>
      obtain ⟨bytes', hf⟩ := h.file hd
      simp [hf] at hn
    | directory => simp [h.directory hd] at hn
    | link target => simp [h.link hd] at hn

namespace Plan

variable {d : Disk} {out : Path} {key : Location}

theorem exists_leadsTo_of_pathOf (hk : ∀ n ∈ key, Path.IsName n) {l : Location}
    (h : d.LeadsTo (pathOf out key) l) : ∃ loc, d.LeadsTo out loc := by
  induction key using List.reverseRecOn generalizing l with
  | nil => exact ⟨l, h⟩
  | append_singleton key n ih =>
    have hn : Path.IsName n := hk n (by simp)
    rw [pathOf_concat] at h
    obtain ⟨l₀, h₀⟩ := Disk.exists_leadsTo_of_follow_join hn (h.follow (Path.join_ne_nil _ hn))
    exact ih (fun m hm => hk m (by simp [hm])) h₀

/-- Where something is found below a directory, the directory is there. -/
theorem exists_leadsTo_of_follow (hk : Path.AreNames key) {f : Found}
    (h : d.follow (pathOf out key) = .ok f) : ∃ loc, d.LeadsTo out loc := by
  obtain ⟨dir, n, rfl⟩ := (List.eq_nil_or_concat key).resolve_left hk.ne_nil
  have hn := hk.isName
  rw [List.concat_eq_append] at h hn
  rw [pathOf_concat] at h
  obtain ⟨l, hl⟩ := Disk.exists_leadsTo_of_follow_join (hn n (by simp)) h
  exact exists_leadsTo_of_pathOf (fun m hm => hn m (by simp [hm])) hl

end Plan

namespace Book

variable {d d' : Disk} {b : BookSettings} {cs : List Category} {stats : Stats} {loc : Location}

/-- The locations of files that a book with its directory at `loc` may change on `d`. -/
inductive MayChange (cs : List Category) (d : Disk) (loc : Location) : Location → Prop
  | page {key : Location} {t : Text} (h : (key, t) ∈ (chaptersPlan (Layout.ofCategories cs)).pages) :
      MayChange cs d loc (loc ++ key)
  | projectFile : MayChange cs d loc (loc ++ [Layout.projectFile])
  | homePage (h : d.node? (loc ++ [Layout.homePage]) = none) :
      MayChange cs d loc (loc ++ [Layout.homePage])

/-- On the way from `d` to `d'` the home page was missing from the directory of the book. -/
def HomeMissing (d d' : Disk) (out : Path) : Prop :=
  ∃ d₁ loc, d.Grows d₁ ∧ d₁.Grows d' ∧ d₁.LeadsTo out loc ∧
    d₁.pathExists (out.join Layout.homePage) = false

theorem HomeMissing.node?_eq_none (h : HomeMissing d d' b.directory)
    (hl : d'.LeadsTo b.directory loc) (hno : d.NoLinkBelow loc) :
    d.node? (loc ++ [Layout.homePage]) = none := by
  obtain ⟨d₁, loc₁, hg, hg', hl₁, hm⟩ := h
  obtain rfl := (hl₁.mono_ways hg'.toKeepsWays).unique hl
  exact hg.node?_eq_none (node?_homePage hl₁ (hg.noLinkBelow hno) hm)

/-- When the chapters have been written, the directory of the book is there. -/
theorem exists_leadsTo_of_chapters
    (h : Action.runAll d (chapterActions b (Layout.ofCategories cs)) = (d', none)) :
    ∃ loc, d'.LeadsTo b.directory loc := by
  obtain ⟨d₀, h₀, hrest⟩ := Action.runAll_cons_ok h
  obtain ⟨loc₀, hloc₀⟩ := Disk.ensureDirectories_leadsTo h₀
  obtain ⟨loc, hloc⟩ := Disk.exists_leadsTo_of_follow_join isName_chaptersDir
    (hloc₀.follow (Path.join_ne_nil _ isName_chaptersDir))
  exact ⟨loc, hloc.mono_ways (Action.runAll_leaves hrest).grows.toKeepsWays⟩

/-- A run writes chapters, the project file, and a home page only where it was missing. -/
theorem write_leaves_part (d : Disk) (b : BookSettings) (cs : List Category) (stats : Stats) :
    ∃ ws, Action.Leaves ws d (write d b cs stats).1 ∧
      ∀ w ∈ ws, w ∈ chapterPages b cs ∨ w.1 = b.directory.join Layout.projectFile ∨
        (w.1 = b.directory.join Layout.homePage ∧
          HomeMissing d (write d b cs stats).1 b.directory) := by
  rcases h₁ : Action.runAll d (chapterActions b (Layout.ofCategories cs)) with ⟨d₁, _ | e⟩
  · have hchapters := Action.runAll_leaves h₁
    obtain ⟨loc, hlead⟩ := exists_leadsTo_of_chapters h₁
    generalize hfresh : (!d₁.pathExists (b.directory.join Layout.homePage)) = fresh
    -- What is left to do: the home page counts as missing only once the chapters are written.
    let last := (frontSteps b (Layout.ofCategories cs) stats fresh).map (·.action)
    have hw : (write d b cs stats).1 = (Action.runAll d₁ last).1 := by
      simp only [write_eq, h₁, hfresh]
      split <;> simp_all [last]
    obtain ⟨ws, hp, hfront⟩ := Action.runAll_leaves_prefix d₁ last
    rw [hw]
    refine ⟨_, hchapters.append hfront, fun w hm => ?_⟩
    rcases List.mem_append.1 hm with hm | hm
    · exact .inl hm
    · have hlast := hp.subset hm
      cases fresh with
      | false =>
        obtain rfl := List.mem_singleton.1 hlast
        exact .inr (.inl rfl)
      | true =>
        rcases List.mem_pair.1 hlast with rfl | rfl
        · refine .inr (.inr ⟨rfl, d₁, loc, hchapters.grows, hfront.grows, hlead, ?_⟩)
          simpa using hfresh
        · exact .inr (.inl rfl)
  · obtain ⟨ws, hp, hl⟩ := Action.runAll_leaves_prefix d (chapterActions b (Layout.ofCategories cs))
    have hw : (write d b cs stats).1 =
        (Action.runAll d (chapterActions b (Layout.ofCategories cs))).1 := by
      simp only [write_eq, h₁]
    rw [hw]
    exact ⟨ws, hl, fun w hm => .inl (hp.subset hm)⟩

/-- What a run with these categories changes. -/
structure Changes (cs : List Category) (out : Path) (d d' : Disk) : Prop where
  grows : d.Grows d'
  node : ∀ l, d'.node? l = d.node? l ∨ (d.node? l = none ∧ d'.node? l = some .directory) ∨
    ∃ loc bytes, d'.LeadsTo out loc ∧ d'.node? l = some (.file bytes) ∧ MayChange cs d loc l

/-- If no link lies in the directory of the book, a run changes the files of the book at their places
there, and all else it makes is directories. -/
theorem write_changes (d : Disk) (b : BookSettings) (cs : List Category) (stats : Stats)
    (hno : ∀ loc, (write d b cs stats).1.LeadsTo b.directory loc → d.NoLinkBelow loc) :
    Changes cs b.directory d (write d b cs stats).1 := by
  obtain ⟨ws, hl, hws⟩ := write_leaves_part d b cs stats
  generalize (write d b cs stats).1 = d' at *
  refine ⟨hl.grows, fun l => ?_⟩
  rcases hl.node l with he | hd | ⟨w, hw, hf⟩
  · exact .inl he
  · exact .inr (.inl hd)
  refine .inr (.inr ?_)
  have hplace (key : Location) (hk : Path.AreNames key)
      (hp : w.1 = Plan.pathOf b.directory key) :
      ∃ loc, d'.LeadsTo b.directory loc ∧ l = loc ++ key := by
    rw [hp] at hf
    obtain ⟨loc, hloc⟩ := Plan.exists_leadsTo_of_follow hk hf
    exact ⟨loc, hloc, Action.follow_pathOf_eq hloc (hl.grows.noLinkBelow (hno loc hloc)) hk hf⟩
  have hnode := Disk.node?_of_follow_file hf
  rcases hws w hw with hpage | hproject | ⟨hhome, hmissing⟩
  · rw [chapterPages_eq] at hpage
    obtain ⟨⟨key, t⟩, hm, rfl⟩ := List.mem_map.1 hpage
    have hk : key ∈ (chaptersPlan (Layout.ofCategories cs)).keys :=
      (Plan.keys_pages_sublist _).subset (List.mem_map_of_mem hm)
    obtain ⟨loc, hloc, rfl⟩ := hplace key (areNames_of_mem_chapters hk) rfl
    exact ⟨loc, _, hloc, hnode, .page hm⟩
  · obtain ⟨loc, hloc, rfl⟩ := hplace [Layout.projectFile]
      ⟨by simp, by simpa using isName_projectFile⟩ hproject
    exact ⟨loc, _, hloc, hnode, .projectFile⟩
  · obtain ⟨loc, hloc, rfl⟩ := hplace [Layout.homePage]
      ⟨by simp, by simpa using isName_homePage⟩ hhome
    exact ⟨loc, _, hloc, hnode, .homePage (hmissing.node?_eq_none hloc (hno loc hloc))⟩

end Book

end Bookbinder
