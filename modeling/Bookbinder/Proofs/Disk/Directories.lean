import Bookbinder.Proofs.Disk.Growth
import Bookbinder.Proofs.Disk.Tree
import Mathlib.Data.List.Induction

/-!
# Making missing directories

On a tree, making a directory with all directories above it makes those that are missing at the end of
its path, one in the other, and nothing else (`ensureDirectories_makes`). This fails for a path with
`..`, which may go through a directory that has to be made and come out of it again. Where the directory
above is there already, at most one directory is made (`LeadsTo.ensureDirectories_ok`).
-/

namespace Bookbinder

namespace Disk

variable {d d' d₁ : Disk} {dir loc : Location} {names : List Text} {p : Path} {n : Text}

/-- Directories with these names are made in `dir`, one in the other. -/
inductive Makes (dir : Location) (d : Disk) : List Text → Disk → Prop
  | nil : Makes dir d [] d
  | concat {names : List Text} {n : Text} {d₁ : Disk} (h : Makes dir d names d₁)
      (hn : d₁.node? (dir ++ (names ++ [n])) = none) :
      Makes dir d (names ++ [n]) (d₁.put (dir ++ (names ++ [n])) .directory)

theorem Makes.adds (h : Makes dir d names d') : d.AddsDirectories d' := by
  induction h with
  | nil => exact .refl d
  | concat _ hn ih => exact ih.trans (addsDirectories_put hn)

theorem AddsDirectories.node?_eq_none (h : d.AddsDirectories d') (hn : d'.node? loc = none) :
    d.node? loc = none := by
  rcases h.node loc with he | ⟨he, -⟩
  · rw [← he, hn]
  · exact he

theorem Makes.eq_of_nil (h : Makes dir d [] d') : d' = d := by
  generalize hn : [] = ns at h
  cases h with
  | nil => rfl
  | concat => simp at hn

/-- The directories are new. -/
theorem Makes.node?_eq_none (h : Makes dir d names d') {ns : List Text} (hns : ns <+: names)
    (hne : ns ≠ []) : d.node? (dir ++ ns) = none := by
  induction h with
  | nil => exact absurd (List.prefix_nil.1 hns) hne
  | concat h hn ih =>
    rcases List.prefix_concat_iff.1 hns with rfl | hns
    · exact h.adds.node?_eq_none hn
    · exact ih hns

/-- Nodes elsewhere stay as they are. -/
theorem Makes.node?_eq (h : Makes dir d names d') (hl : ∀ ns, ns <+: names → loc ≠ dir ++ ns) :
    d'.node? loc = d.node? loc := by
  induction h with
  | nil => rfl
  | @concat names n d₁ _ _ ih =>
    rw [node?_put_of_ne (hl _ (List.prefix_refl _))]
    exact ih fun ns hns => hl ns (hns.trans (List.prefix_append ..))

theorem Way.concat {links : Nat} {here : Location} {ps : List Text} (h : Way d links here ps loc)
    (hn : IsEntry n) (hd : d.node? (loc ++ [n]) = some .directory) :
    Way d links here (ps ++ [n]) (loc ++ [n]) := by
  obtain ⟨links', hf⟩ := h.followFrom_append
  apply Way.of_followFrom
  rw [hf, followFrom_enter hn hd, followFrom_nil]

/-- In a directory that is there at most one directory is made, at the name that is no link. -/
theorem LeadsTo.ensureDirectories_ok (h : d.LeadsTo p loc) (hn : Path.IsName n)
    (hl : ∀ target, d.node? (loc ++ [n]) ≠ some (.link target))
    (he : d.ensureDirectories (p.join n).components = (d', none)) :
    d'.LeadsTo (p.join n) (loc ++ [n]) ∧ ∀ l, l ≠ loc ++ [n] → d'.node? l = d.node? l := by
  have hne : (p.join n).components ≠ [] := by simp [Path.components_join p hn]
  have hthere : d.isDirectory (p.join n).normal → d.LeadsTo (p.join n) (loc ++ [n]) := by
    intro hd
    obtain ⟨l, hj⟩ := (isDirectory_iff (normal_join_ne_nil p hn)).1 hd
    have hj : d.LeadsTo (p.join n) l :=
      hj.of_steps (Path.isAbsolute_normal _).symm (Path.steps_normal _).symm
    obtain ⟨hf, -⟩ | ⟨hf, -⟩ | ⟨bytes, hf, -⟩ :=
      h.follow_join_cases hn hl (hj.follow (Path.join_ne_nil p hn))
    · simp at hf
    · cases hf
      exact hj
    · simp at hf
  rw [ensureDirectories, if_neg hne, ← Path.normal, h.makeDirectory_join hn] at he
  by_cases hlong : maxName < byteLength n
  · simp only [if_pos hlong] at he
    split at he
    · cases he
      exact ⟨hthere ‹_›, fun l _ => rfl⟩
    · simp at he
  · simp only [if_neg hlong] at he
    cases hd : d.node? (loc ++ [n]) with
    | none =>
      simp only [hd, Option.isSome_none, Bool.false_eq_true, if_false] at he
      cases he
      have hk := (addsDirectories_put hd).grows.toKeepsWays
      exact ⟨(h.mono_ways hk).join hn hlong (node?_put_self (by simp) ..),
        fun l hne => node?_put_of_ne hne ..⟩
    | some node =>
      simp only [hd, Option.isSome_some, if_true] at he
      split at he
      · cases he
        exact ⟨hthere ‹_›, fun l _ => rfl⟩
      · simp at he

section Parts

open Bookbinder.Path (AreParts ofParts Component)

variable {l : List Component} {ss : List Text} {s : Text}

theorem leadsTo_ofParts_iff (q : Path) : d.LeadsTo (ofParts q.lead q.steps) loc ↔ d.LeadsTo q loc := by
  rw [← Path.normal_eq_ofParts]
  constructor
  · exact fun h => h.of_steps (Path.isAbsolute_normal q).symm (Path.steps_normal q).symm
  · exact fun h => h.of_steps (Path.isAbsolute_normal q) (Path.steps_normal q)

theorem start_ofParts (h : AreParts l (ss ++ [s])) :
    d.start (ofParts l (ss ++ [s])) = d.start (ofParts l ss) := by
  rw [start, start, Path.isAbsolute_eq, Path.isAbsolute_eq, h.lead_ofParts, h.of_append.lead_ofParts]

theorem components_ofParts_concat (h : AreParts l (ss ++ [s])) (hs : s ≠ ['.', '.']) :
    (ofParts l (ss ++ [s])).components = l ++ ss.map Component.ofStep ++ [.name s] := by
  have hname : Component.ofStep s = .name s := if_neg hs
  rw [h.components_ofParts, List.map_append, List.map_singleton, hname, List.append_assoc]

theorem parentComponents_ofParts_concat (h : AreParts l (ss ++ [s])) (hs : s ≠ ['.', '.']) :
    (ofParts l (ss ++ [s])).parentComponents = l ++ ss.map Component.ofStep := by
  rw [Path.parentComponents, components_ofParts_concat h hs, List.getLast?_concat,
    List.dropLast_concat]

/-- A new directory is made in the one that the path above leads to, and its path leads to it. -/
theorem makeDirectory_ofParts (h : AreParts l (ss ++ [s])) (hs : s ≠ ['.', '.'])
    (hm : d.makeDirectory (ofParts l (ss ++ [s])) = .ok d') :
    ∃ dir, d.LeadsTo (ofParts l ss) dir ∧ d.node? (dir ++ [s]) = none ∧
      d' = d.put (dir ++ [s]) .directory ∧ d'.LeadsTo (ofParts l (ss ++ [s])) (dir ++ [s]) := by
  obtain ⟨dir, n, hlast, hdir, hshort, hn, rfl⟩ := makeDirectory_ok hm
  rw [components_ofParts_concat h hs, List.getLast?_concat] at hlast
  cases hlast
  rw [parentComponents_ofParts_concat h hs, ← ofParts] at hdir
  refine ⟨dir, hdir, hn, rfl, ?_⟩
  have hk := (addsDirectories_put hn).grows.toKeepsWays
  have he : IsEntry s := ⟨Path.isStep_iff.1 (h.step s (by simp)), hs, hshort⟩
  have hw := (hdir.mono_ways hk).way
  rw [h.of_append.steps_ofParts] at hw
  apply leadsTo_of_way
  rw [h.steps_ofParts, start_ofParts h]
  exact hw.concat he (node?_put_self (by simp) ..)

theorem leadsTo_ofParts_nil (hl : AreParts l []) :
    d.LeadsTo (ofParts l []) (d.start (ofParts l [])) := by
  apply leadsTo_of_way
  rw [hl.steps_ofParts]
  exact .done

/-- The root and the working directory are there. -/
theorem ensureDirectories_lead (hl : AreParts l []) : d.ensureDirectories l = (d, none) := by
  have hp : ofParts l [] = Path.ofComponents l := by rw [ofParts, List.map_nil, List.append_nil]
  have hloc : d.LeadsTo (ofParts l []) (d.start (ofParts l [])) := leadsTo_ofParts_nil hl
  have hc : (ofParts l []).components = l := by
    rw [hl.components_ofParts, List.map_nil, List.append_nil]
  by_cases hne : l = []
  · rw [ensureDirectories, if_pos hne]
  have hne' : ofParts l [] ≠ [] := by
    rcases hl.lead with rfl | rfl | rfl
    · decide
    · decide
    · exact absurd rfl hne
  have hm : d.makeDirectory (ofParts l []) = .error .alreadyExists := by
    have he : d.pathExists (ofParts l []) := (pathExists_iff hne').2 (.inr ⟨_, hloc⟩)
    rw [makeDirectory, hc]
    rcases hl.lead with rfl | rfl | rfl
    · exact if_pos he
    · exact if_pos he
    · exact absurd rfl hne
  have hd : d.isDirectory (ofParts l []) := (isDirectory_iff hne').2 ⟨_, hloc⟩
  rw [hp] at hm hd
  rw [ensureDirectories, if_neg hne, hm]
  simp only [hd, if_true]

/-- On a tree nothing lies in a directory that was just made. -/
theorem Makes.not_leadsTo (ht : d.IsTree) (hm : Makes dir d names d') (hne : names ≠ [])
    (h : AreParts l (ss ++ [s])) (hs : s ≠ ['.', '.'])
    (hlead : d'.LeadsTo (ofParts l ss) (dir ++ names)) :
    ¬d'.LeadsTo (ofParts l (ss ++ [s])) loc := by
  intro hj
  have hstep := Path.isStep_iff.1 (h.step s (by simp))
  have hw := hlead.way
  rw [h.of_append.steps_ofParts, ← start_ofParts h] at hw
  obtain ⟨links, hf⟩ := hw.followFrom_append
  have hfollow := hj.way.followFrom_eq
  rw [h.steps_ofParts, hf] at hfollow
  have hnone : d'.node? (dir ++ names ++ [s]) = none := by
    rw [hm.node?_eq]
    · rw [← Option.not_isSome_iff_eq_none]
      intro hsome
      have hd := ht.directory_above hsome
      simp [hm.node?_eq_none (List.prefix_refl _) hne] at hd
    · intro ns hns he
      have hlen := congrArg List.length he
      have := hns.length_le
      simp at hlen
      omega
  by_cases hlong : maxName < byteLength s
  · rw [followFrom, if_neg hstep, if_neg hs, if_pos hlong] at hfollow
    simp at hfollow
  · rw [followFrom_entry ⟨hstep, hs, hlong⟩, hnone] at hfollow
    simp at hfollow

theorem ofParts_concat_ne_nil (h : AreParts l (ss ++ [s])) : ofParts l (ss ++ [s]) ≠ [] := by
  intro hnil
  have hsteps := h.steps_ofParts
  rw [hnil] at hsteps
  simp [Path.steps, splitWhen, Path.isStep] at hsteps

/-- The directories that were missing at the end of a path have been made. -/
structure MadeMissing (d : Disk) (l : List Component) (ss : List Text) (d' : Disk)
    (ps names : List Text) (dir : Location) : Prop where
  steps : ss = ps ++ names
  start : d.LeadsTo (ofParts l ps) dir
  makes : Makes dir d names d'
  leadsTo : d'.LeadsTo (ofParts l ss) (dir ++ names)

theorem MadeMissing.of_leadsTo (h : d.LeadsTo (ofParts l ss) loc) : MadeMissing d l ss d ss [] loc :=
  ⟨(List.append_nil _).symm, h, .nil, by simpa using h⟩

/-- One more directory, after those above it. -/
theorem MadeMissing.concat {ps : List Text} (ht : d.IsTree) (hm : MadeMissing d l ss d₁ ps names dir)
    (h : AreParts l (ss ++ [s])) (hs : s ≠ ['.', '.'])
    (he : d₁.ensureDirectory (ofParts l (ss ++ [s])) = .ok d') :
    ∃ ps names dir, MadeMissing d l (ss ++ [s]) d' ps names dir := by
  unfold ensureDirectory at he
  split at he
  · rename_i hmake
    cases he
    obtain ⟨dir', hdir', hn, rfl, hlead⟩ := makeDirectory_ofParts h hs hmake
    obtain rfl := hm.leadsTo.unique hdir'
    rw [List.append_assoc dir names [s]] at hn hlead ⊢
    exact ⟨ps, names ++ [s], dir, by rw [hm.steps, List.append_assoc], hm.start,
      .concat hm.makes hn, hlead⟩
  · split at he
    · cases he
      obtain ⟨loc, hloc⟩ := (isDirectory_iff (ofParts_concat_ne_nil h)).1 ‹_›
      by_cases hnames : names = []
      · subst hnames
        obtain rfl := hm.makes.eq_of_nil
        exact ⟨_, _, loc, .of_leadsTo hloc⟩
      · exact absurd hloc (hm.makes.not_leadsTo ht hnames h hs hm.leadsTo)
    · simp at he

/-- On a tree the directories that are missing at the end of a path without `..` are made. -/
theorem ensureDirectories_makes (ht : d.IsTree) (h : AreParts l ss) (hup : ∀ s ∈ ss, s ≠ ['.', '.'])
    (he : d.ensureDirectories (l ++ ss.map Component.ofStep) = (d', none)) :
    ∃ ps names dir, MadeMissing d l ss d' ps names dir := by
  induction ss using List.reverseRecOn generalizing d' with
  | nil =>
    rw [List.map_nil, List.append_nil, ensureDirectories_lead h] at he
    cases he
    exact ⟨_, _, _, .of_leadsTo (leadsTo_ofParts_nil h)⟩
  | append_singleton ss s ih =>
    have hs : s ≠ ['.', '.'] := hup s (by simp)
    have hdrop : (l ++ (ss ++ [s]).map Component.ofStep).dropLast = l ++ ss.map Component.ofStep := by
      rw [List.map_append, List.map_singleton, ← List.append_assoc, List.dropLast_concat]
    rw [ensureDirectories, if_neg (by simp), ← ofParts, hdrop] at he
    split at he
    · rename_i hm
      cases he
      obtain ⟨dir, hdir, hn, rfl, hlead⟩ := makeDirectory_ofParts h hs hm
      exact ⟨ss, [] ++ [s], dir, rfl, hdir, .concat .nil hn, hlead⟩
    · -- The directory above is missing too.
      split at he
      · simp at he
      · rename_i d₁ he₁
        obtain ⟨ps, names, dir, hm⟩ := ih h.of_append (fun t ht => hup t (by simp [ht])) he₁
        split at he
        · cases he
          exact hm.concat ht h hs ‹_›
        · simp at he
    · split at he
      · cases he
        obtain ⟨loc, hloc⟩ := (isDirectory_iff (ofParts_concat_ne_nil h)).1 ‹_›
        exact ⟨_, _, loc, .of_leadsTo hloc⟩
      · simp at he

/-- A directory is there when it has been made. -/
theorem ensureDirectories_leadsTo (he : d.ensureDirectories p.components = (d', none)) :
    ∃ loc, d'.LeadsTo p loc := by
  suffices h : ∃ loc, d'.LeadsTo (ofParts p.lead p.steps) loc by
    obtain ⟨loc, h⟩ := h
    exact ⟨loc, (leadsTo_ofParts_iff p).1 h⟩
  have hparts := p.areParts
  rw [Path.components_eq] at he
  generalize p.lead = l at *
  generalize p.steps = ss at *
  rcases List.eq_nil_or_concat ss with rfl | ⟨ss, s, rfl⟩
  · rw [List.map_nil, List.append_nil, ensureDirectories_lead hparts] at he
    cases he
    exact ⟨_, leadsTo_ofParts_nil hparts⟩
  rw [List.concat_eq_append] at *
  have hmake {d₁ d₂ : Disk} (hm : d₁.makeDirectory (ofParts l (ss ++ [s])) = .ok d₂) :
      ∃ loc, d₂.LeadsTo (ofParts l (ss ++ [s])) loc := by
    obtain ⟨-, n, hlast, -⟩ := makeDirectory_ok hm
    have hs : s ≠ ['.', '.'] := by
      rintro rfl
      simp [hparts.components_ofParts, Component.ofStep] at hlast
    obtain ⟨dir, -, -, -, hlead⟩ := makeDirectory_ofParts hparts hs hm
    exact ⟨_, hlead⟩
  have hthere {d₁ : Disk} (hd : d₁.isDirectory (ofParts l (ss ++ [s]))) :=
    (isDirectory_iff (ofParts_concat_ne_nil hparts)).1 hd
  rw [ensureDirectories, if_neg (by simp), ← ofParts] at he
  split at he
  · cases he
    exact hmake ‹_›
  · split at he
    · simp at he
    · split at he
      · cases he
        rename_i hm
        unfold ensureDirectory at hm
        split at hm
        · cases hm
          exact hmake ‹_›
        · split at hm
          · cases hm
            exact hthere ‹_›
          · simp at hm
      · simp at he
  · split at he
    · cases he
      exact hthere ‹_›
    · simp at he

end Parts

end Disk

end Bookbinder
