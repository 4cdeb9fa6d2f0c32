import Bookbinder.Proofs.Book.Confinement
import Bookbinder.Proofs.Disk.Upkeep

/-!
# Writing a book twice

An action is settled on a disk (`Action.Settled`) if it finds done what it would do; then it changes
nothing (`Action.Settled.run`). Where no link lies, a run that comes to its end leaves all its actions
settled (`Plan.settled_of_runAll`), because no two pages share a file. So a book that has been written
can be written again, and nothing changes but that the home page is there already (`Book.write_again`).
-/

namespace Bookbinder

namespace Action

variable {d d' : Disk} {a : Action} {as : List Action} {p : Path}

/-- What the action would do is done. -/
def Settled (d : Disk) : Action → Prop
  | makeDirectories p => ∃ (q : Path) (n : Text) (loc : Location),
      Path.IsName n ∧ p = q.join n ∧ d.LeadsTo p loc
  | write p t => ∃ loc, d.follow p = .ok (.file loc (Disk.encode t))

theorem Settled.agree (h : a.Settled d) (ha : d.Agree d') : a.Settled d' := by
  cases a with
  | makeDirectories p =>
    obtain ⟨q, n, loc, hn, rfl, hl⟩ := h
    refine ⟨q, n, loc, hn, rfl, ?_⟩
    have hs : d'.start (q.join n) = d.start (q.join n) := by rw [Disk.start, Disk.start, ha.workDir]
    rw [Disk.LeadsTo, hs, ha.followFrom_eq]
    exact hl
  | write p t =>
    obtain ⟨loc, hf⟩ := h
    exact ⟨loc, (ha.follow_eq p).trans hf⟩

/-- A settled action changes nothing. -/
theorem Settled.run (h : a.Settled d) : ∃ d', a.run d = (d', none) ∧ d.Agree d' := by
  cases a with
  | makeDirectories p =>
    obtain ⟨q, n, loc, hn, rfl, hl⟩ := h
    exact ⟨d, hl.ensureDirectories_there hn, .refl d⟩
  | write p t =>
    obtain ⟨loc, hf⟩ := h
    obtain ⟨d', hw, ha⟩ := Disk.agree_writeText hf
    exact ⟨d', by rw [Action.run, hw], ha⟩

theorem runAll_of_settled (h : ∀ a ∈ as, a.Settled d) :
    ∃ d', runAll d as = (d', none) ∧ d.Agree d' := by
  induction as generalizing d with
  | nil => exact ⟨d, rfl, .refl d⟩
  | cons a as ih =>
    obtain ⟨d₁, hrun, ha⟩ := (h a (by simp)).run
    obtain ⟨d', hrest, ha'⟩ := ih fun b hb => (h b (List.mem_cons_of_mem _ hb)).agree ha
    exact ⟨d', by rw [runAll, hrun]; exact hrest, ha.trans ha'⟩

/-! ## What runs keep -/

theorem isSound_run (h : d.IsSound) (a : Action) : (a.run d).1.IsSound := by
  cases a with
  | makeDirectories p => exact h.ensureDirectories p.components
  | write p t =>
    simp only [Action.run]
    split
    · exact h.writeText ‹_›
    · exact h

theorem isSound_runAll (h : d.IsSound) (as : List Action) : (runAll d as).1.IsSound := by
  induction as generalizing d with
  | nil => exact h
  | cons a as ih =>
    have ha := isSound_run h a
    rw [runAll]
    split
    · rename_i hr
      rw [hr] at ha
      exact ih ha
    · exact ha

/-- The directories of a run are there in the end. -/
theorem leadsTo_of_runAll (h : runAll d as = (d', none)) (hm : .makeDirectories p ∈ as) :
    ∃ loc, d'.LeadsTo p loc := by
  induction as generalizing d with
  | nil => simp at hm
  | cons a as ih =>
    obtain ⟨d₁, ha, has⟩ := runAll_cons_ok h
    rcases List.mem_cons.1 hm with rfl | hm
    · obtain ⟨loc, hl⟩ := Disk.ensureDirectories_leadsTo ha
      exact ⟨loc, hl.mono_ways (runAll_leaves has).grows.toKeepsWays⟩
    · exact ih has hm

end Action

namespace Plan

variable {d d' : Disk} {out : Path} {loc : Location} {es : Plan}

/-- Where no link lies, a run leaves all its actions settled. -/
theorem settled_of_runAll (hn : ∀ key ∈ es.keys, Path.AreNames key) (hd : es.keys.Nodup)
    (ho : d'.LeadsTo out loc) (hl : d'.NoLinkBelow loc)
    (h : Action.runAll d (actions out es) = (d', none)) :
    ∀ a ∈ actions out es, a.Settled d' := by
  intro a ha
  obtain ⟨⟨key, x⟩, hm, rfl⟩ := List.mem_map.1 ha
  have hkey := hn key (List.mem_map_of_mem hm)
  cases x with
  | directory =>
    obtain ⟨l, hlead⟩ := Action.leadsTo_of_runAll h ha
    obtain ⟨dir, n, rfl⟩ := (List.eq_nil_or_concat key).resolve_left hkey.ne_nil
    rw [List.concat_eq_append] at *
    exact ⟨pathOf out dir, n, l, hkey.isName n (by simp), pathOf_concat .., hlead⟩
  | page t =>
    have hleaves := Action.runAll_leaves h
    rw [Action.writes_actions] at hleaves
    have hpages : (es.pages.map (·.1)).Nodup := (keys_pages_sublist es).nodup hd
    have hnames : ∀ f ∈ es.pages, Path.AreNames f.1 := fun f hf =>
      hn f.1 ((keys_pages_sublist es).subset (List.mem_map_of_mem hf))
    exact ⟨_, hleaves.follow hpages hnames ho hl (mem_pages.2 hm)⟩

end Plan

namespace Book

variable {d d' : Disk} {b : BookSettings} {cs : List Category} {stats : Stats} {r : Report}

theorem isSound_write (h : d.IsSound) (hw : write d b cs stats = (d', .ok r)) : d'.IsSound := by
  obtain ⟨d₁, home, h₁, -, -, h₂⟩ := write_ok_iff.1 hw
  have hs := Action.isSound_runAll h (chapterActions b (Layout.ofCategories cs))
  rw [h₁] at hs
  have hs' := Action.isSound_runAll hs
    (Plan.actions b.directory (frontEntries b (Layout.ofCategories cs) stats home))
  rwa [h₂] at hs'

section Entries

variable {loc : Location} {home : Bool} {d₁ : Disk}

theorem runAll_entries
    (h₁ : Action.runAll d (chapterActions b (Layout.ofCategories cs)) = (d₁, none))
    (h₂ : Action.runAll d₁ (Plan.actions b.directory
      (frontEntries b (Layout.ofCategories cs) stats home)) = (d', none)) :
    Action.runAll d (Plan.actions b.directory (entries b (Layout.ofCategories cs) stats home)) =
      (d', none) := by
  rw [entries, Plan.actions_append, Plan.runAll_append, ← chapterActions_eq, h₁]
  exact h₂

theorem areNames_of_mem_entries {key : Location}
    (h : key ∈ (entries b (Layout.ofCategories cs) stats home).keys) : Path.AreNames key :=
  (rooted_plan b cs stats).areNames (by simp) key ((keys_entries_sublist ..).subset h)

theorem settled_entries (hlead : d'.LeadsTo b.directory loc) (hno : d'.NoLinkBelow loc)
    (h : Action.runAll d (Plan.actions b.directory
      (entries b (Layout.ofCategories cs) stats home)) = (d', none)) :
    ∀ a ∈ chapterActions b (Layout.ofCategories cs) ++
      Plan.actions b.directory (frontEntries b (Layout.ofCategories cs) stats home), a.Settled d' := by
  have hnodup := (keys_entries_sublist b (Layout.ofCategories cs) stats home).nodup
    (nodup_keys_plan b (Layout.wellNamed_ofCategories cs) stats)
  rw [chapterActions_eq, ← Plan.actions_append]
  exact Plan.settled_of_runAll (fun key => areNames_of_mem_entries) hnodup hlead hno h

/-- A book that has been written can be written again, and nothing changes. -/
theorem write_again (hw : write d b cs stats = (d', .ok r)) (hlead : d'.LeadsTo b.directory loc)
    (hno : d.NoLinkBelow loc) :
    ∃ d'', write d' b cs stats = (d'', .ok (report cs false)) ∧ d'.Agree d'' := by
  obtain ⟨d₁, home, h₁, -, -, h₂⟩ := write_ok_iff.1 hw
  have hrun := runAll_entries h₁ h₂
  have hsettled := settled_entries hlead ((Action.runAll_leaves hrun).grows.noLinkBelow hno) hrun
  obtain ⟨d₁', hrun₁, ha₁⟩ := Action.runAll_of_settled fun a ha =>
    hsettled a (List.mem_append_left _ ha)
  -- The home page is there by now, so the second run leaves it out.
  have hfront : ∀ a ∈ Plan.actions b.directory
      (frontEntries b (Layout.ofCategories cs) stats false), a.Settled d₁' := by
    intro a ha
    refine (hsettled a (List.mem_append_right _ ?_)).agree ha₁
    cases home with
    | false => exact ha
    | true => exact List.mem_cons_of_mem _ ha
  obtain ⟨d'', hrun₂, ha₂⟩ := Action.runAll_of_settled hfront
  refine ⟨d'', write_ok_iff.2 ⟨d₁', false, ?_, ?_, rfl, hrun₂⟩, ha₁.trans ha₂⟩
  · exact hrun₁
  · rw [ha₁.pathExists_eq, pathExists_homePage_of_write hw]
    rfl

/-- The home page is among the pages of a report exactly if the run has made it. -/
theorem write_home_iff (hw : write d b cs stats = (d', .ok r)) (hlead : d'.LeadsTo b.directory loc)
    (hno : d.NoLinkBelow loc) :
    ∃ home, r = report cs home ∧ (home = true ↔ d.node? (loc ++ [Layout.homePage]) = none ∧
      ∃ bytes, d'.node? (loc ++ [Layout.homePage]) = some (.file bytes)) := by
  obtain ⟨d₁, home, h₁, hhome, hr, h₂⟩ := write_ok_iff.1 hw
  have hleaves := Action.runAll_leaves (runAll_entries h₁ h₂)
  have hno' := hleaves.grows.noLinkBelow hno
  refine ⟨home, hr, ?_⟩
  cases home with
  | true =>
    obtain ⟨loc₁, hlead₁⟩ := exists_leadsTo_of_chapters h₁
    have hg₁ := (Action.runAll_leaves h₁).grows
    obtain rfl := (hlead₁.mono_ways (Action.runAll_leaves h₂).grows.toKeepsWays).unique hlead
    have hmissing := node?_homePage hlead₁ (hg₁.noLinkBelow hno) (by simpa using hhome.symm)
    refine iff_of_true rfl ⟨hg₁.node?_eq_none hmissing, ?_⟩
    obtain ⟨l, hf⟩ := settled_entries hlead hno' (runAll_entries h₁ h₂) _
      (List.mem_append_right _ (List.mem_cons_self ..))
    obtain rfl := hlead.eq_of_follow_file isName_homePage hno' hf
    exact ⟨_, Disk.node?_of_follow_file hf⟩
  | false =>
    refine iff_of_false (by simp) ?_
    -- A new file comes from a write, and none of the writes was for the home page.
    rintro ⟨hn, bytes, hf⟩
    rcases hleaves.node (loc ++ [Layout.homePage]) with he | ⟨-, hd⟩ | ⟨w, hm, hfollow⟩
    · simp [he, hn] at hf
    · simp [hd] at hf
    · rw [Action.writes_actions] at hm
      obtain ⟨f, hmem, rfl⟩ := List.mem_map.1 hm
      have hkey := (Plan.keys_pages_sublist _).subset (List.mem_map_of_mem hmem)
      have he := Action.follow_pathOf_eq hlead hno' (areNames_of_mem_entries hkey) hfollow
      rw [← List.append_cancel_left he, Plan.keys, entries, List.map_append] at hkey
      rcases List.mem_append.1 hkey with hkey | hkey
      · exact not_mem_keys_chaptersPlan (by decide) hkey
      · have he : [Layout.homePage] = [Layout.projectFile] := List.mem_singleton.1 hkey
        exact absurd he (by decide)

end Entries

end Book

end Bookbinder
