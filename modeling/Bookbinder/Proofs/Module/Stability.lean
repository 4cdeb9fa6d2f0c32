import Bookbinder.Proofs.Module.Grouping
import Bookbinder.Proofs.Text.Order
import Mathlib.Data.List.Nodup

/-!
# Groups are sorted and stable

Grouping puts categories and sub-categories in the order of their names, each once and none empty, with
the modules that name them. In a sub-category modules are sorted by name, and modules of one name keep
the order they came in (`IsGrouping`). These properties leave no choice (`IsGrouping.groupModules_eq`),
so modules may be given in any order that agrees on those of equal category, sub-category and name
(`groupModules_stable`).
-/

namespace Bookbinder

/-! ## Names in order -/

theorem pairwise_distinctNames (names : List Text) : (distinctNames names).Pairwise TextLt := by
  have hle := isOrdering_textLe.pairwise_mergeSort names.eraseDups
  refine (hle.and (nodup_distinctNames names)).imp ?_
  rintro s t ⟨hst, hne⟩
  exact (textLe_iff.1 hst).resolve_left hne

theorem TextLt.ne {s t : Text} (h : TextLt s t) : s ≠ t := by
  rintro rfl
  unfold TextLt at h
  induction s with
  | nil => cases h
  | cons a s ih =>
    rw [List.cons_lex_cons_iff] at h
    rcases h with h | ⟨-, h⟩
    · omega
    · exact ih h

/-- Things in the order of their names are made from those names, if each follows from its name. -/
theorem map_distinctNames_eq {α : Type} {gs : List α} {name : α → Text} {make : Text → α}
    {names : List Text} (hsorted : gs.Pairwise fun a b => TextLt (name a) (name b))
    (hnames : ∀ n, n ∈ gs.map name ↔ n ∈ names) (hmake : ∀ g ∈ gs, make (name g) = g) :
    (distinctNames names).map make = gs := by
  have hlt : (gs.map name).Pairwise TextLt := List.pairwise_map.2 hsorted
  have hperm : (distinctNames names).Perm (gs.map name) := by
    refine (List.perm_ext_iff_of_nodup (nodup_distinctNames names) (hlt.imp TextLt.ne)).2 fun n => ?_
    rw [mem_distinctNames, hnames]
  have heq : distinctNames names = gs.map name := by
    apply isOrdering_textLe.eq_of_perm _ _ hperm
    · exact (pairwise_distinctNames names).imp fun h => textLe_iff.2 (.inr h)
    · exact hlt.imp fun h => textLe_iff.2 (.inr h)
  rw [heq, List.map_map]
  exact (List.map_congr_left hmake).trans (List.map_id gs)

/-! ## Sub-categories -/

/-- The first name is that of the second module, or comes before it. -/
def ModuleDoc.NameLe (m n : ModuleDoc) : Prop :=
  m.info.name = n.info.name ∨ TextLt m.info.name n.info.name

theorem pairwise_sortByName (ms : List ModuleDoc) : (sortByName ms).Pairwise ModuleDoc.NameLe :=
  (isOrdering_textLe.pairwise_mergeSort_key (fun m : ModuleDoc => m.info.name) ms).imp textLe_iff.1

theorem filter_sortByName (ms : List ModuleDoc) (name : Text) :
    (sortByName ms).filter (·.info.name == name) = ms.filter (·.info.name == name) :=
  isOrdering_textLe.filter_mergeSort (·.info.name) ms name

theorem eq_sortByName {ms ms' : List ModuleDoc} (h : ms'.Pairwise ModuleDoc.NameLe)
    (hties : ∀ name, ms'.filter (·.info.name == name) = ms.filter (·.info.name == name)) :
    sortByName ms = ms' := by
  apply isOrdering_textLe.eq_of_ties fun m : ModuleDoc => m.info.name
  · exact isOrdering_textLe.pairwise_mergeSort_key (·.info.name) ms
  · exact h.imp textLe_iff.2
  · intro name
    exact (filter_sortByName ms name).trans (hties name).symm

/-- The modules in sub-categories, sorted and stable. -/
structure AreSections (ms : List ModuleDoc) (ss : List SubCategory) : Prop where
  mem_iff : ∀ m, m ∈ ms ↔ ∃ s ∈ ss, m ∈ s.modules
  sorted : ss.Pairwise fun s s' => TextLt s.name s'.name
  ne_nil : ∀ s ∈ ss, s.modules ≠ []
  placed : ∀ s ∈ ss, ∀ m ∈ s.modules, m.info.subcategory = s.name
  ordered : ∀ s ∈ ss, s.modules.Pairwise ModuleDoc.NameLe
  stable : ∀ s ∈ ss, ∀ name, s.modules.filter (·.info.name == name) =
    (ms.filter (·.info.subcategory == s.name)).filter (·.info.name == name)

/-- A sub-category is made of the modules that name it, and there is one. -/
theorem of_mem_groupSubCategories {ms : List ModuleDoc} {s : SubCategory}
    (hs : s ∈ groupSubCategories ms) :
    (∃ m ∈ ms, m.info.subcategory = s.name) ∧
      s.modules = sortByName (ms.filter (·.info.subcategory == s.name)) := by
  obtain ⟨name, hname, rfl⟩ := List.mem_map.1 hs
  obtain ⟨m, hm, rfl⟩ := List.mem_map.1 (mem_distinctNames.1 hname)
  exact ⟨⟨m, hm, rfl⟩, rfl⟩

theorem mem_sortByName {ms : List ModuleDoc} {m : ModuleDoc} : m ∈ sortByName ms ↔ m ∈ ms :=
  List.mem_mergeSort

theorem areSections_groupSubCategories (ms : List ModuleDoc) :
    AreSections ms (groupSubCategories ms) where
  mem_iff m := by
    rw [← (modules_groupSubCategories ms).mem_iff, List.mem_flatMap]
  sorted := List.pairwise_map.2 (pairwise_distinctNames _)
  ne_nil s hs hnil := by
    obtain ⟨⟨m, hm, hname⟩, heq⟩ := of_mem_groupSubCategories hs
    have hmem : m ∈ s.modules := by
      rw [heq, mem_sortByName]
      simp [hm, hname]
    rw [hnil] at hmem
    exact List.not_mem_nil hmem
  placed s hs m hm := by
    rw [(of_mem_groupSubCategories hs).2, mem_sortByName, List.mem_filter] at hm
    simpa using hm.2
  ordered s hs := by
    rw [(of_mem_groupSubCategories hs).2]
    exact pairwise_sortByName _
  stable s hs name := by
    rw [(of_mem_groupSubCategories hs).2, filter_sortByName]

/-- There is one way to put modules in sub-categories. -/
theorem AreSections.groupSubCategories_eq {ms : List ModuleDoc} {ss : List SubCategory}
    (h : AreSections ms ss) : groupSubCategories ms = ss := by
  apply map_distinctNames_eq h.sorted
  · intro name
    simp only [List.mem_map, h.mem_iff]
    constructor
    · rintro ⟨s, hs, rfl⟩
      obtain ⟨m, hm⟩ := List.exists_mem_of_ne_nil _ (h.ne_nil s hs)
      exact ⟨m, ⟨s, hs, hm⟩, h.placed s hs m hm⟩
    · rintro ⟨m, ⟨s, hs, hm⟩, rfl⟩
      exact ⟨s, hs, (h.placed s hs m hm).symm⟩
  · intro s hs
    rw [eq_sortByName (h.ordered s hs) (h.stable s hs)]

/-! ## Categories -/

/-- The module has the category, the sub-category and the name. -/
def ModuleDoc.isAt (m : ModuleDoc) (category subcategory name : Text) : Bool :=
  m.info.category == category && m.info.subcategory == subcategory && m.info.name == name

/-- The modules in categories and sub-categories, sorted and stable. -/
structure IsGrouping (ms : List ModuleDoc) (cs : List Category) : Prop where
  /-- No module is lost, and none comes twice. -/
  perm : (cs.flatMap Category.modules).Perm ms
  categories_sorted : cs.Pairwise fun c d => TextLt c.name d.name
  subCategories_sorted : ∀ c ∈ cs, c.subCategories.Pairwise fun s s' => TextLt s.name s'.name
  categories_ne_nil : ∀ c ∈ cs, c.subCategories ≠ []
  subCategories_ne_nil : ∀ c ∈ cs, ∀ s ∈ c.subCategories, s.modules ≠ []
  placed : ∀ c ∈ cs, ∀ s ∈ c.subCategories, ∀ m ∈ s.modules,
    m.info.category = c.name ∧ m.info.subcategory = s.name
  ordered : ∀ c ∈ cs, ∀ s ∈ c.subCategories, s.modules.Pairwise ModuleDoc.NameLe
  /-- Modules of one name come as they were given. -/
  stable : ∀ c ∈ cs, ∀ s ∈ c.subCategories, ∀ name,
    s.modules.filter (·.info.name == name) = ms.filter (·.isAt c.name s.name name)

theorem filter_isAt (ms : List ModuleDoc) (category subcategory name : Text) :
    ((ms.filter (·.info.category == category)).filter (·.info.subcategory == subcategory)).filter
        (·.info.name == name) = ms.filter (·.isAt category subcategory name) := by
  rw [List.filter_filter, List.filter_filter]
  apply List.filter_congr
  intro m _
  unfold ModuleDoc.isAt
  rw [Bool.and_comm, Bool.and_comm (m.info.name == name), ← Bool.and_assoc]

theorem of_mem_groupModules {ms : List ModuleDoc} {c : Category} (hc : c ∈ groupModules ms) :
    (∃ m ∈ ms, m.info.category = c.name) ∧
      AreSections (ms.filter (·.info.category == c.name)) c.subCategories := by
  obtain ⟨name, hname, rfl⟩ := List.mem_map.1 hc
  obtain ⟨m, hm, rfl⟩ := List.mem_map.1 (mem_distinctNames.1 hname)
  exact ⟨⟨m, hm, rfl⟩, areSections_groupSubCategories _⟩

theorem isGrouping_groupModules (ms : List ModuleDoc) : IsGrouping ms (groupModules ms) where
  perm := modules_groupModules ms
  categories_sorted := List.pairwise_map.2 (pairwise_distinctNames _)
  subCategories_sorted c hc := (of_mem_groupModules hc).2.sorted
  categories_ne_nil c hc hnil := by
    obtain ⟨⟨m, hm, hname⟩, hss⟩ := of_mem_groupModules hc
    obtain ⟨s, hs, -⟩ := (hss.mem_iff m).1 (by simp [hm, hname])
    rw [hnil] at hs
    exact List.not_mem_nil hs
  subCategories_ne_nil c hc := (of_mem_groupModules hc).2.ne_nil
  placed c hc s hs m hm := by
    have hss := (of_mem_groupModules hc).2
    have hmem := (hss.mem_iff m).2 ⟨s, hs, hm⟩
    exact ⟨by simpa using (List.mem_filter.1 hmem).2, hss.placed s hs m hm⟩
  ordered c hc := (of_mem_groupModules hc).2.ordered
  stable c hc s hs name := by
    rw [(of_mem_groupModules hc).2.stable s hs, filter_isAt]

section Uniqueness

variable {ms ms' : List ModuleDoc} {cs : List Category}

theorem IsGrouping.mem_iff (h : IsGrouping ms cs) (m : ModuleDoc) :
    m ∈ ms ↔ ∃ c ∈ cs, ∃ s ∈ c.subCategories, m ∈ s.modules := by
  rw [← h.perm.mem_iff]
  simp only [List.mem_flatMap, Category.modules]

/-- The modules of a category are those that name it. -/
theorem IsGrouping.areSections (h : IsGrouping ms cs) {c : Category} (hc : c ∈ cs) :
    AreSections (ms.filter (·.info.category == c.name)) c.subCategories where
  mem_iff m := by
    rw [List.mem_filter, h.mem_iff, beq_iff_eq]
    constructor
    · rintro ⟨⟨d, hd, s, hs, hm⟩, hname⟩
      rw [(h.placed d hd s hs m hm).1] at hname
      have hdc : d = c := by
        have hinj : cs.Pairwise fun c d => c.name ≠ d.name := h.categories_sorted.imp TextLt.ne
        exact List.inj_on_of_nodup_map (List.pairwise_map.2 hinj) hd hc hname
      subst hdc
      exact ⟨s, hs, hm⟩
    · rintro ⟨s, hs, hm⟩
      exact ⟨⟨c, hc, s, hs, hm⟩, (h.placed c hc s hs m hm).1⟩
  sorted := h.subCategories_sorted c hc
  ne_nil := h.subCategories_ne_nil c hc
  placed s hs m hm := (h.placed c hc s hs m hm).2
  ordered := h.ordered c hc
  stable s hs name := by
    rw [h.stable c hc s hs, filter_isAt]

/-- There is one way to group modules. -/
theorem IsGrouping.groupModules_eq (h : IsGrouping ms cs) : groupModules ms = cs := by
  apply map_distinctNames_eq h.categories_sorted
  · intro name
    simp only [List.mem_map, h.mem_iff]
    constructor
    · rintro ⟨c, hc, rfl⟩
      obtain ⟨s, hs⟩ := List.exists_mem_of_ne_nil _ (h.categories_ne_nil c hc)
      obtain ⟨m, hm⟩ := List.exists_mem_of_ne_nil _ (h.subCategories_ne_nil c hc s hs)
      exact ⟨m, ⟨c, hc, s, hs, hm⟩, (h.placed c hc s hs m hm).1⟩
    · rintro ⟨m, ⟨c, hc, s, hs, hm⟩, rfl⟩
      exact ⟨c, hc, (h.placed c hc s hs m hm).1.symm⟩
  · intro c hc
    rw [(h.areSections hc).groupSubCategories_eq]

/-- Modules of equal category, sub-category and name come in the same order in both lists. -/
def SameTies (ms ms' : List ModuleDoc) : Prop :=
  ∀ category subcategory name,
    ms.filter (·.isAt category subcategory name) = ms'.filter (·.isAt category subcategory name)

/-- Neighbours that differ in category, sub-category or name may change places. -/
theorem sameTies_swap {m n : ModuleDoc}
    (h : ¬(m.info.category = n.info.category ∧ m.info.subcategory = n.info.subcategory ∧
      m.info.name = n.info.name)) (ms : List ModuleDoc) :
    SameTies (m :: n :: ms) (n :: m :: ms) := by
  intro category subcategory name
  cases hm : m.isAt category subcategory name with
  | false => simp [hm, List.filter_cons]
  | true =>
    have hn : n.isAt category subcategory name = false := by
      rw [← Bool.not_eq_true]
      intro hn
      simp only [ModuleDoc.isAt, Bool.and_eq_true, beq_iff_eq] at hm hn
      exact h ⟨hm.1.1.trans hn.1.1.symm, hm.1.2.trans hn.1.2.symm, hm.2.trans hn.2.symm⟩
    simp [hn, List.filter_cons]

theorem IsGrouping.reorder (h : IsGrouping ms cs) (hperm : ms'.Perm ms) (hties : SameTies ms' ms) :
    IsGrouping ms' cs :=
  { h with
    perm := h.perm.trans hperm.symm
    stable := fun c hc s hs name => by rw [h.stable c hc s hs, hties] }

end Uniqueness

/-- Grouping is the one sorted and stable way to put modules in categories and sub-categories, so the
order they are given in matters only among modules of equal category, sub-category and name. -/
theorem groupModules_stable (ms : List ModuleDoc) :
    IsGrouping ms (groupModules ms) ∧ (∀ cs, IsGrouping ms cs → cs = groupModules ms) ∧
      ∀ ms', ms'.Perm ms → SameTies ms' ms → groupModules ms' = groupModules ms := by
  have hms := isGrouping_groupModules ms
  exact ⟨hms, fun cs h => h.groupModules_eq.symm,
    fun ms' hperm hties => (hms.reorder hperm hties).groupModules_eq⟩

/-- A module of category `lib` and sub-category `core`. -/
def coreModule (name path : Text) : ModuleDoc := ⟨⟨name, [], path, "lib", "core"⟩, []⟩

theorem groupModules_stable_utils :
    [coreModule "shape" "c.js", coreModule "util" "b.js", coreModule "util" "a.js"].Perm
      [coreModule "util" "b.js", coreModule "shape" "c.js", coreModule "util" "a.js"] ∧
    groupModules [coreModule "shape" "c.js", coreModule "util" "b.js", coreModule "util" "a.js"] =
      groupModules [coreModule "util" "b.js", coreModule "shape" "c.js", coreModule "util" "a.js"] ∧
    ∀ cs, IsGrouping [coreModule "util" "b.js", coreModule "shape" "c.js", coreModule "util" "a.js"] cs →
      cs = groupModules
        [coreModule "util" "b.js", coreModule "shape" "c.js", coreModule "util" "a.js"] := by
  have hstable := groupModules_stable
    [coreModule "util" "b.js", coreModule "shape" "c.js", coreModule "util" "a.js"]
  exact ⟨by decide, hstable.2.2 _ (by decide) (sameTies_swap (by decide) _), hstable.2.1⟩

/-- The two modules of one name are kept as they came, whatever their paths. -/
example : (groupModules
    [coreModule "util" "b.js", coreModule "shape" "c.js", coreModule "util" "a.js"]).map
      (·.modules.map (·.info.path)) = [["c.js".toList, "b.js".toList, "a.js".toList]] := by
  cbv

end Bookbinder
