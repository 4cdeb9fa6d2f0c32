import Bookbinder.Book.Layout
import Bookbinder.Proofs.Path
import Bookbinder.Proofs.Slug

/-!
# The names in a layout

A layout is well named when the entries of each of its directories, the index page among them, have
names that differ from each other and can stand in a path (`Layout.WellNamed`). Every layout of
categories is (`wellNamed_ofCategories`), whatever the names of the categories and modules are, and it
has a place for each of them, in order (`contents_ofCategories`).
-/

namespace Bookbinder

theorem IsSlug.isName {t : Text} (h : IsSlug t) : Path.IsName t where
  ne_nil := h.1
  ne_dot := by
    rintro rfl
    exact h.not_mem_of_isAlphanumeric isAlphanumeric_dot (by decide) (by simp)
  ne_parent := by
    rintro rfl
    exact h.not_mem_of_isAlphanumeric isAlphanumeric_dot (by decide) (by simp)
  slash := h.not_mem_of_isAlphanumeric isAlphanumeric_slash (by decide)

/-- Names of the entries of one directory. -/
structure AreSiblings (names : List Text) : Prop where
  nodup : names.Nodup
  isName : ∀ n ∈ names, Path.IsName n

/-- The index page and the pages of the modules are siblings. -/
def SubCategoryPlace.WellNamed (s : SubCategoryPlace) : Prop :=
  AreSiblings (Layout.indexPage :: s.modules.map (·.2))

/-- The index page and the directories of the sub-categories are siblings. -/
structure CategoryPlace.WellNamed (c : CategoryPlace) : Prop where
  siblings : AreSiblings (Layout.indexPage :: c.subCategories.map (·.dir))
  subCategory : ∀ s ∈ c.subCategories, s.WellNamed

/-- What a place has pages for. -/
def SubCategoryPlace.contents (s : SubCategoryPlace) : SubCategory :=
  ⟨s.subCategory.name, s.modules.map (·.1)⟩

/-- What a place has pages for. -/
def CategoryPlace.contents (c : CategoryPlace) : Category :=
  ⟨c.category.name, c.subCategories.map SubCategoryPlace.contents⟩

namespace Layout

/-- The directories of the categories are siblings, and so are the entries below them. -/
structure WellNamed (l : Layout) : Prop where
  siblings : AreSiblings (l.map (·.dir))
  category : ∀ c ∈ l, c.WellNamed

/-! ## Directories -/

theorem isSlug_dirSlug (name : Text) : IsSlug (dirSlug name) := by
  unfold dirSlug
  simp only
  split
  · decide +kernel
  · rename_i h
    exact isSlug_slugify (by simpa using h)

@[simp]
theorem length_siblingDirs (names : List Text) : (siblingDirs names).length = names.length := by
  simp [siblingDirs]

theorem isSlug_of_mem_siblingDirs {names : List Text} {dir : Text} (h : dir ∈ siblingDirs names) :
    IsSlug dir := by
  refine SlugSet.isSlug_of_mem_claimAll (fun base hb => ?_) h
  obtain ⟨name, -, rfl⟩ := List.mem_map.1 hb
  exact isSlug_dirSlug name

theorem areSiblings_siblingDirs (names : List Text) : AreSiblings (siblingDirs names) where
  nodup := SlugSet.nodup_claimAll _ _
  isName _ h := (isSlug_of_mem_siblingDirs h).isName

theorem isName_indexPage : Path.IsName indexPage := by constructor <;> decide

/-- An index page is no directory: its name has a dot. -/
theorem areSiblings_indexPage_siblingDirs (names : List Text) :
    AreSiblings (indexPage :: siblingDirs names) where
  nodup := by
    refine List.nodup_cons.2 ⟨fun h => ?_, (areSiblings_siblingDirs names).nodup⟩
    refine (isSlug_of_mem_siblingDirs h).not_mem_of_isAlphanumeric isAlphanumeric_dot ?_ ?_ <;> decide
  isName := by
    intro n hn
    rcases List.mem_cons.1 hn with rfl | hn
    · exact isName_indexPage
    · exact (areSiblings_siblingDirs names).isName n hn

/-! ## Files of modules -/

theorem isSlug_moduleSlug (name : Text) : IsSlug (moduleSlug name) := by
  unfold moduleSlug
  simp only
  split
  · decide +kernel
  · rename_i h
    split
    · decide +kernel
    · exact isSlug_slugify (by simpa using h)

@[simp]
theorem length_moduleFiles (ms : List ModuleDoc) : (moduleFiles ms).length = ms.length := by
  simp [moduleFiles]

/-- The files of modules have the names of slugs other than `index`. -/
theorem exists_slug_of_mem_moduleFiles {ms : List ModuleDoc} {file : Text}
    (h : file ∈ moduleFiles ms) :
    ∃ slug, IsSlug slug ∧ slug ≠ "index".toList ∧ file = slug ++ ".qmd".toList := by
  obtain ⟨slug, hs, rfl⟩ := List.mem_map.1 h
  refine ⟨slug, SlugSet.isSlug_of_mem_claimAll (fun base hb => ?_) hs, ?_, rfl⟩
  · obtain ⟨m, -, rfl⟩ := List.mem_map.1 hb
    exact isSlug_moduleSlug m.info.name
  · have := SlugSet.not_mem_taken_of_mem_claimAll hs
    simpa using this

theorem isName_of_mem_moduleFiles {ms : List ModuleDoc} {file : Text} (h : file ∈ moduleFiles ms) :
    Path.IsName file := by
  obtain ⟨slug, hs, -, rfl⟩ := exists_slug_of_mem_moduleFiles h
  obtain ⟨x, slug, rfl⟩ := List.exists_cons_of_ne_nil hs.1
  refine ⟨by simp, by cases slug <;> simp, by cases slug <;> simp, ?_⟩
  rw [List.mem_append]
  rintro (hm | hm)
  · exact hs.isName.slash hm
  · exact absurd hm (by decide)

theorem areSiblings_indexPage_moduleFiles (ms : List ModuleDoc) :
    AreSiblings (indexPage :: moduleFiles ms) where
  nodup := by
    refine List.nodup_cons.2 ⟨fun h => ?_, ?_⟩
    · obtain ⟨slug, -, hne, he⟩ := exists_slug_of_mem_moduleFiles h
      have hi : indexPage = "index".toList ++ ".qmd".toList := by decide
      rw [hi] at he
      exact hne (List.append_cancel_right he).symm
    · rw [moduleFiles, List.Nodup, List.pairwise_map]
      exact (SlugSet.nodup_claimAll _ _).imp fun hne he => hne (List.append_cancel_right he)
  isName := by
    intro n hn
    rcases List.mem_cons.1 hn with rfl | hn
    · exact isName_indexPage
    · exact isName_of_mem_moduleFiles hn

/-! ## Layouts of categories -/

theorem map_snd_placeSubCategory (s : SubCategory) (dir : Text) :
    (placeSubCategory s dir).modules.map (·.2) = moduleFiles s.modules :=
  List.map_snd_zip (by simp)

theorem contents_placeSubCategory (s : SubCategory) (dir : Text) :
    (placeSubCategory s dir).contents = s := by
  have h : (placeSubCategory s dir).modules.map (·.1) = s.modules := List.map_fst_zip (by simp)
  rw [SubCategoryPlace.contents, h]
  rfl

/-- Sub-categories with the names of their directories. -/
theorem subCategories_placeCategory (c : Category) (dir : Text) :
    (placeCategory c dir).subCategories =
      (c.subCategories.zip (siblingDirs (c.subCategories.map (·.name)))).map
        fun s => placeSubCategory s.1 s.2 :=
  (List.map_zip_eq_zipWith (f := fun s => placeSubCategory s.1 s.2)).symm

theorem map_dir_placeCategory (c : Category) (dir : Text) :
    (placeCategory c dir).subCategories.map (·.dir) =
      siblingDirs (c.subCategories.map (·.name)) := by
  rw [subCategories_placeCategory, List.map_map]
  exact List.map_snd_zip (by simp)

theorem ofCategories_eq (cs : List Category) :
    ofCategories cs = (cs.zip (siblingDirs (cs.map (·.name)))).map fun c => placeCategory c.1 c.2 :=
  (List.map_zip_eq_zipWith (f := fun c => placeCategory c.1 c.2)).symm

theorem map_dir_ofCategories (cs : List Category) :
    (ofCategories cs).map (·.dir) = siblingDirs (cs.map (·.name)) := by
  rw [ofCategories_eq, List.map_map]
  exact List.map_snd_zip (by simp)

theorem wellNamed_placeCategory (c : Category) (dir : Text) : (placeCategory c dir).WellNamed where
  siblings := by
    rw [map_dir_placeCategory]
    exact areSiblings_indexPage_siblingDirs _
  subCategory := by
    intro s hs
    rw [subCategories_placeCategory] at hs
    obtain ⟨⟨sub, dir'⟩, -, rfl⟩ := List.mem_map.1 hs
    rw [SubCategoryPlace.WellNamed, map_snd_placeSubCategory]
    exact areSiblings_indexPage_moduleFiles sub.modules

/-- Entries of one directory have different names in every layout of categories. -/
theorem wellNamed_ofCategories (cs : List Category) : (ofCategories cs).WellNamed where
  siblings := by
    rw [map_dir_ofCategories]
    exact areSiblings_siblingDirs _
  category := by
    intro c hc
    rw [ofCategories_eq] at hc
    obtain ⟨⟨cat, dir⟩, -, rfl⟩ := List.mem_map.1 hc
    exact wellNamed_placeCategory cat dir

theorem contents_placeCategory (c : Category) (dir : Text) : (placeCategory c dir).contents = c := by
  have h : (placeCategory c dir).subCategories.map SubCategoryPlace.contents = c.subCategories := by
    rw [subCategories_placeCategory, List.map_map]
    simp only [Function.comp_def, contents_placeSubCategory]
    exact List.map_fst_zip (by simp)
  rw [CategoryPlace.contents, h]
  rfl

/-- A layout of categories has a place for each category, sub-category and module, in order. -/
theorem contents_ofCategories (cs : List Category) :
    (ofCategories cs).map CategoryPlace.contents = cs := by
  rw [ofCategories_eq, List.map_map]
  simp only [Function.comp_def, contents_placeCategory]
  exact List.map_fst_zip (by simp)

/-- The file of a module is a page. -/
theorem isSuffix_of_mem_modules {cs : List Category} {c : CategoryPlace} {s : SubCategoryPlace}
    {m : ModuleDoc × Text} (hc : c ∈ ofCategories cs) (hs : s ∈ c.subCategories)
    (hm : m ∈ s.modules) : ".qmd".toList <:+ m.2 := by
  rw [ofCategories_eq] at hc
  obtain ⟨⟨cat, dir⟩, -, rfl⟩ := List.mem_map.1 hc
  rw [subCategories_placeCategory] at hs
  obtain ⟨⟨sub, dir'⟩, -, rfl⟩ := List.mem_map.1 hs
  have hf : m.2 ∈ moduleFiles sub.modules :=
    map_snd_placeSubCategory sub dir' ▸ List.mem_map_of_mem hm
  obtain ⟨slug, -, -, he⟩ := exists_slug_of_mem_moduleFiles hf
  exact he ▸ List.suffix_append slug _

end Layout

end Bookbinder
