import Bookbinder.Proofs.Book.Chapters
import Bookbinder.Proofs.Disk.Directories

/-!
# The home page

The home page is written if it is missing when the chapters have been written. One that was there before
the run is still there then, so it is kept. One that was not there before is still missing then, unless
writing the chapters makes it: a link among the pages may lead to the home page, and a path with `..`
may lead elsewhere once the directories on its way are made. In a plain directory without links the
chapters make no home page (`not_pathExists_chapters`), so it is written (`write_homeWritten`).
-/

namespace Bookbinder

namespace Plan

variable {d d' : Disk} {out : Path} {loc l : Location} {dirs : List Location} {es : Plan}

/-- In a directory without links the actions of a plan change nothing but its locations. -/
theorem node?_runAll_actions (hr : Rooted dirs es)
    (hl : ∀ dir ∈ dirs, d.LeadsTo (pathOf out dir) (loc ++ dir)) (hno : d.NoLinkBelow loc)
    (hrun : Action.runAll d (actions out es) = (d', none)) (hne : ∀ key ∈ es.keys, l ≠ loc ++ key) :
    d'.node? l = d.node? l := by
  induction es generalizing d dirs with
  | nil =>
    cases hrun
    rfl
  | cons e es ih =>
    obtain ⟨key, x⟩ := e
    obtain ⟨⟨dir, hdir, n, hn, rfl⟩, hr⟩ := hr
    obtain ⟨d₁, h₁, hrun₁⟩ := Action.runAll_cons_ok hrun
    have hg := (Action.run_leaves h₁).grows
    have hlead := hl dir hdir
    have hnolink := hno.below dir
    have hl₁ : ∀ dir ∈ dirs, d₁.LeadsTo (pathOf out dir) (loc ++ dir) :=
      fun dir hdir => (hl dir hdir).mono_ways hg.toKeepsWays
    have hrest : ∀ key ∈ keys es, l ≠ loc ++ key := fun key hk => hne key (List.mem_cons_of_mem _ hk)
    have hfirst : l ≠ loc ++ dir ++ [n] := by
      rw [List.append_assoc]
      exact hne _ (List.mem_cons_self ..)
    cases x with
    | directory =>
      change (Action.makeDirectories (pathOf out (dir ++ [n]))).run d = (d₁, none) at h₁
      rw [pathOf_concat] at h₁
      obtain ⟨hlead', hnode⟩ := hlead.ensureDirectories_ok hn (hnolink [n] (by simp)) h₁
      rw [← pathOf_concat, List.append_assoc] at hlead'
      have hdirs : ∀ dir' ∈ (dir ++ [n]) :: dirs, d₁.LeadsTo (pathOf out dir') (loc ++ dir') :=
        List.forall_mem_cons.2 ⟨hlead', hl₁⟩
      rw [ih hr hdirs (hg.noLinkBelow hno) hrun₁ hrest, hnode l hfirst]
    | page t =>
      change (Action.write (pathOf out (dir ++ [n])) t).run d = (d₁, none) at h₁
      rw [pathOf_concat] at h₁
      obtain ⟨l', -, hfollow, hnode⟩ := Disk.writeText_ok (Action.writeText_of_run h₁)
      have hl' : l' = loc ++ dir ++ [n] :=
        (hl₁ dir hdir).eq_of_follow_file hn (hg.noLinkBelow hnolink) hfollow
      rw [ih hr hl₁ (hg.noLinkBelow hno) hrun₁ hrest, hnode l (hl' ▸ hfirst)]

end Plan

namespace Book

section Absent

variable {d d₀ d₁ d' : Disk} {b : BookSettings} {cs : List Category} {loc : Location}

/-- A home page that is missing from its directory. -/
theorem node?_homePage {out : Path} (h : d.LeadsTo out loc) (hno : d.NoLinkBelow loc)
    (ha : d.pathExists (out.join Layout.homePage) = false) :
    d.node? (loc ++ [Layout.homePage]) = none := by
  obtain ⟨links, hj⟩ := h.follow_join isName_homePage
  have he : Disk.IsEntry Layout.homePage := ⟨by decide, by decide, by decide⟩
  rw [Disk.pathExists, hj, Disk.followFrom_entry he] at ha
  cases hn : d.node? (loc ++ [Layout.homePage]) with
  | none => rfl
  | some node =>
    cases node with
    | file bytes => simp [hn] at ha
    | directory => simp [hn, Disk.followFrom_nil] at ha
    | link target => exact absurd hn (hno _ (by simp) target)

/-- What the directory of a book may be: its path leads to a directory already, or does not go up. -/
def IsPlainDirectory (d : Disk) (out : Path) : Prop :=
  (∃ loc, d.LeadsTo out loc) ∨ ∀ s ∈ out.steps, s ≠ ['.', '.']

/-- Making the directory of the chapters does not make a home page. -/
structure MakesChapters (d : Disk) (out : Path) (d₀ : Disk) (loc : Location) : Prop where
  directory : d₀.LeadsTo out loc
  chapters : d.NoLinkBelow loc →
    d₀.LeadsTo (out.join Layout.chaptersDir) (loc ++ [Layout.chaptersDir])
  homePage : d.NoLinkBelow loc → d₀.node? (loc ++ [Layout.homePage]) = none

theorem makesChapters_of_leadsTo {out : Path} (h : d.LeadsTo out loc)
    (ha : d.pathExists (out.join Layout.homePage) = false)
    (he : d.ensureDirectories (out.join Layout.chaptersDir).components = (d₀, none)) :
    MakesChapters d out d₀ loc := by
  have hadds := d.ensureDirectories_adds (out.join Layout.chaptersDir).components
  rw [he] at hadds
  refine ⟨h.mono_ways hadds.grows.toKeepsWays, fun hno => ?_, fun hno => ?_⟩
  · exact (h.ensureDirectories_ok isName_chaptersDir (hno _ (by simp)) he).1
  · have hnode := (h.ensureDirectories_ok isName_chaptersDir (hno _ (by simp)) he).2
    rw [hnode _ (by simp; decide), node?_homePage h hno ha]

theorem exists_makesChapters {out : Path} (ht : d.IsTree) (hout : IsPlainDirectory d out)
    (ha : d.pathExists (out.join Layout.homePage) = false)
    (he : d.ensureDirectories (out.join Layout.chaptersDir).components = (d₀, none)) :
    ∃ loc, MakesChapters d out d₀ loc := by
  rcases hout with ⟨loc, h⟩ | hup
  · exact ⟨loc, makesChapters_of_leadsTo h ha he⟩
  -- The path does not go up, so the directories that are missing at its end are made.
  have hsteps := Path.steps_join out isName_chaptersDir
  have hup' : ∀ s ∈ (out.join Layout.chaptersDir).steps, s ≠ ['.', '.'] := by
    rw [hsteps]
    intro s hs
    rcases List.mem_append.1 hs with hs | hs
    · exact hup s hs
    · rw [List.mem_singleton.1 hs]
      decide
  have he' := he
  rw [Path.components_eq] at he'
  obtain ⟨ps, names, dir, hm⟩ :=
    Disk.ensureDirectories_makes ht (out.join Layout.chaptersDir).areParts hup' he'
  have hlead := (Disk.leadsTo_ofParts_iff _).1 hm.leadsTo
  obtain ⟨loc, hloc⟩ := Disk.exists_leadsTo_of_follow_join isName_chaptersDir
    (hlead.follow (Path.join_ne_nil out isName_chaptersDir))
  rcases List.eq_nil_or_concat names with rfl | ⟨above, n, rfl⟩
  · -- Nothing is missing.
    obtain rfl := hm.makes.eq_of_nil
    exact ⟨loc, makesChapters_of_leadsTo hloc ha he⟩
  rw [List.concat_eq_append] at hm hlead
  have hs := hm.steps
  rw [hsteps, ← List.append_assoc] at hs
  obtain ⟨hps, hn⟩ := List.append_inj' hs rfl
  obtain rfl : Layout.chaptersDir = n := (List.cons.inj hn).1
  by_cases habove : above = []
  · -- Only the directory of the chapters is missing.
    subst habove
    have hstart := hm.start
    rw [List.append_nil] at hps
    rw [Path.lead_join out isName_chaptersDir, ← hps, Disk.leadsTo_ofParts_iff] at hstart
    exact ⟨dir, makesChapters_of_leadsTo hstart ha he⟩
  · -- The directory of the book is new, so nothing was in it.
    have heq (hno : d.NoLinkBelow loc) : dir ++ above = loc := by
      have hlinks := hm.makes.adds.grows.noLinkBelow hno
      have := hloc.eq_of_leadsTo_join isName_chaptersDir hlinks hlead
      rw [← List.append_assoc] at this
      exact (List.append_inj' this rfl).1
    refine ⟨loc, hloc, fun hno => ?_, fun hno => ?_⟩
    · rwa [← heq hno, List.append_assoc]
    · rw [← heq hno, hm.makes.node?_eq, ← Option.not_isSome_iff_eq_none]
      · intro hsome
        have hd := ht.directory_above hsome
        have hnew := hm.makes.node?_eq_none (List.prefix_append above _) habove
        simp [hnew] at hd
      · intro ns hns hns'
        rw [List.append_assoc] at hns'
        obtain rfl := List.append_cancel_left hns'
        have hlast := List.append_cancel_left (hns.eq_of_length (by simp))
        exact absurd hlast (by decide)

/-- The chapters of a book on a tree do not make a home page, if the directory of the book is plain and
no link lies in it. -/
theorem not_pathExists_chapters (ht : d.IsTree) (hout : IsPlainDirectory d b.directory)
    (ha : d.pathExists (b.directory.join Layout.homePage) = false)
    (hrun : Action.runAll d (chapterActions b (Layout.ofCategories cs)) = (d₁, none))
    (hg : d₁.Grows d') (hlead : d'.LeadsTo b.directory loc) (hno : d.NoLinkBelow loc) :
    d₁.pathExists (b.directory.join Layout.homePage) = false := by
  rw [chapterActions_eq, chaptersPlan, Plan.actions_within] at hrun
  obtain ⟨d₀, h₀, hrun₁⟩ := Action.runAll_cons_ok hrun
  have hg₀ := (Action.run_leaves h₀).grows
  have hg₁ := (Action.runAll_leaves hrun₁).grows
  obtain ⟨loc₀, hm⟩ := exists_makesChapters ht hout ha h₀
  have hlead₁ := hm.directory.mono_ways hg₁.toKeepsWays
  obtain rfl : loc₀ = loc := (hlead₁.mono_ways hg.toKeepsWays).unique hlead
  have hdirs : ∀ dir ∈ [[]], d₀.LeadsTo
      (Plan.pathOf (b.directory.join Layout.chaptersDir) dir) (loc₀ ++ [Layout.chaptersDir] ++ dir) := by
    intro dir hdir
    rw [List.mem_singleton.1 hdir, List.append_nil]
    exact hm.chapters hno
  have hnode : d₁.node? (loc₀ ++ [Layout.homePage]) = none := by
    rw [Plan.node?_runAll_actions (rooted_categories (Layout.wellNamed_ofCategories cs)) hdirs
      ((hg₀.noLinkBelow hno).below [Layout.chaptersDir]) hrun₁, hm.homePage hno]
    intro key _ he
    rw [List.append_assoc] at he
    exact absurd (List.cons.inj (List.append_cancel_left he)).1 (by decide)
  obtain ⟨links, hj⟩ := hlead₁.follow_join isName_homePage
  rw [Disk.pathExists, hj, Disk.followFrom_missing isName_homePage (by decide) hnode]

/-- A home page that was there is kept, and one that was not is written, in a plain directory without
links. In any case it is written if it is missing when the chapters have been written. -/
structure HomeWritten (d : Disk) (b : BookSettings) (cs : List Category) (d' : Disk) (home : Bool) :
    Prop where
  missing : ∃ d₁, Action.runAll d (chapterActions b (Layout.ofCategories cs)) = (d₁, none) ∧
    home = !d₁.pathExists (b.directory.join Layout.homePage)
  kept : d.pathExists (b.directory.join Layout.homePage) → home = false
  made : ∀ loc, d'.LeadsTo b.directory loc → d.IsTree → IsPlainDirectory d b.directory →
    d.NoLinkBelow loc → d.pathExists (b.directory.join Layout.homePage) = false → home = true

theorem write_homeWritten {stats : Stats} {r : Report} (hw : write d b cs stats = (d', .ok r)) :
    ∃ home, r = report cs home ∧ HomeWritten d b cs d' home := by
  obtain ⟨d₁, home, h₁, hhome, hr, h₂⟩ := write_ok_iff.1 hw
  refine ⟨home, hr, ⟨d₁, h₁, hhome⟩, fun he => ?_, fun loc hlead ht hout hno ha => ?_⟩
  · rw [hhome, (Action.runAll_leaves h₁).grows.pathExists he]
    rfl
  · have hg := (Action.runAll_leaves h₂).grows
    rw [hhome, not_pathExists_chapters ht hout ha h₁ hg hlead hno]
    rfl

end Absent

end Book

end Bookbinder
