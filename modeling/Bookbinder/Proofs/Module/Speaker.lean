import Bookbinder.Module.Basic
import Bookbinder.Proofs.Path
import Bookbinder.Proofs.Text.Trimming

/-!
# The comment that speaks for a module

A module keeps the comments of its source except the first one that carries a `module` tag, whose first
word is the name of the module (`ModuleDoc.represents_ofEntries`). `ModuleDoc.Represents` says this by
the positions of comments and tags. Whatever the tags and directories are, a module has a category and
a sub-category, provided that there is a default for them (`ModuleDoc.categories_ne_nil`).
-/

namespace Bookbinder

/-! ## The tags of a comment -/

namespace Comment

/-- The value is that of the first free tag of the name. -/
def FirstTag (c : Comment) (name value : Text) : Prop :=
  ∃ before after, c.tags = before ++ ⟨name, value⟩ :: after ∧ ∀ t ∈ before, t.tag ≠ name

theorem tag?_eq_some_iff {c : Comment} {name value : Text} :
    c.tag? name = some value ↔ c.FirstTag name value := by
  rw [tag?, Option.map_eq_some_iff]
  constructor
  · rintro ⟨t, hfind, rfl⟩
    obtain ⟨hname, before, after, heq, hbefore⟩ := List.find?_eq_some_iff_append.1 hfind
    obtain rfl : t.tag = name := by simpa using hname
    exact ⟨before, after, heq, by simpa using hbefore⟩
  · rintro ⟨before, after, heq, hbefore⟩
    refine ⟨⟨name, value⟩, List.find?_eq_some_iff_append.2 ⟨by simp, before, after, heq, ?_⟩, rfl⟩
    simpa using hbefore

/-- The comment carries a free tag `module`. -/
def HasModuleTag (c : Comment) : Prop := ∃ t ∈ c.tags, t.tag = "module".toList

theorem isModuleComment_iff {c : Comment} : c.isModuleComment ↔ c.HasModuleTag := by
  simp [isModuleComment, tag?, HasModuleTag]

end Comment

/-! ## Entries and name -/

namespace ModuleDoc

/-- The module has the entries and the name that follow from the comments of its source; `fallback` is
its name if no comment gives one. -/
inductive Represents (m : ModuleDoc) (comments : List Entry) (fallback : Text) : Prop
  | unnamed (hnone : ∀ e ∈ comments, ¬e.comment.HasModuleTag) (hentries : m.entries = comments)
      (hname : m.info.name = fallback)
  | named {before after : List Entry} {speaker : Entry} {value : Text}
      (hcomments : comments = before ++ speaker :: after)
      (hbefore : ∀ e ∈ before, ¬e.comment.HasModuleTag)
      (htag : speaker.comment.FirstTag "module" value) (hentries : m.entries = before ++ after)
      (hname : IsFirstWord value m.info.name ∨ IsBlankRun value ∧ m.info.name = fallback)

theorem represents_ofEntries (path : Path) (comments : List Entry) (category : Text) :
    (ofEntries path comments category).Represents comments (path.stem?.getD "unknown") := by
  cases hfind : comments.find? (·.comment.isModuleComment) with
  | none =>
    have hnone : ∀ e ∈ comments, ¬e.comment.isModuleComment := by
      simpa using List.find?_eq_none.1 hfind
    refine .unnamed ?_ ?_ ?_
    · exact fun e he => mt Comment.isModuleComment_iff.2 (hnone e he)
    · exact List.eraseP_of_forall_not hnone
    · simp only [ofEntries, hfind, Option.map_none, Option.bind_none, Option.getD_none]
  | some speaker =>
    obtain ⟨hspeaker, before, after, rfl, hbefore⟩ := List.find?_eq_some_iff_append.1 hfind
    obtain ⟨value, hvalue⟩ := Option.isSome_iff_exists.1 hspeaker
    refine .named rfl ?_ (Comment.tag?_eq_some_iff.1 hvalue) ?_ ?_
    · exact fun e he => mt Comment.isModuleComment_iff.2 (by simpa using hbefore e he)
    · show (before ++ speaker :: after).eraseP (·.comment.isModuleComment) = _
      rw [List.eraseP_append_right _ (by simpa using hbefore), List.eraseP_cons_of_pos (by exact hspeaker)]
    · have hname : (ofEntries path (before ++ speaker :: after) category).info.name =
          ((words value).head?).getD (path.stem?.getD "unknown") := by
        simp only [ofEntries, hfind, Option.map_some, Option.bind_some, Comment.moduleName?, hvalue]
      rcases isBlankRun_or_isFirstWord value with hblank | ⟨w, hw⟩
      · exact .inr ⟨hblank, by rw [hname, words_eq_nil hblank]; rfl⟩
      · refine .inl ?_
        rw [hname, hw.head?_words]
        exact hw

/-! ## Categories -/

theorem ne_nil_of_mem_parentComponents {p : Path} {c : Path.Component}
    (hc : c ∈ p.parentComponents) : c.text ≠ [] := by
  have hmem : c ∈ p.components := by
    rw [Path.parentComponents] at hc
    split at hc
    · exact absurd hc List.not_mem_nil
    · exact List.dropLast_subset _ hc
  rw [Path.components_eq] at hmem
  rcases List.mem_append.1 hmem with hlead | hstep
  · rcases p.areParts.lead with hl | hl | hl
    · rw [hl, List.mem_singleton] at hlead
      simp [hlead, Path.Component.text]
    · rw [hl, List.mem_singleton] at hlead
      simp [hlead, Path.Component.text]
    · rw [hl] at hlead
      exact absurd hlead List.not_mem_nil
  · obtain ⟨step, hs, rfl⟩ := List.mem_map.1 hstep
    rw [Path.text_ofStep]
    exact fun hnil => Path.isStep_iff.1 (Path.isStep_of_mem_steps hs) (.inl hnil)

theorem directory_ne_nil {p : Path} {i : Nat} {name : Text}
    (h : name ∈ (p.parentComponents.map Path.Component.text)[i]?) : name ≠ [] := by
  obtain ⟨c, hc, rfl⟩ := List.mem_map.1 (List.mem_of_getElem? h)
  exact ne_nil_of_mem_parentComponents hc

theorem ne_nil_of_mem_nonEmpty? {value? : Option Text} {name : Text}
    (h : name ∈ value?.bind nonEmpty?) : name ≠ [] := by
  obtain ⟨value, -, hvalue⟩ := Option.bind_eq_some_iff.1 h
  rintro rfl
  cases value <;> simp [nonEmpty?] at hvalue

/-- The first of two names that is there, or else the default. -/
theorem getD_or_ne_nil {tagged directory : Option Text} {category : Text}
    (htagged : ∀ name ∈ tagged, name ≠ []) (hdirectory : ∀ name ∈ directory, name ≠ [])
    (hcategory : category ≠ []) : (tagged.or directory).getD category ≠ [] := by
  cases tagged with
  | some name => exact htagged name rfl
  | none =>
    cases directory with
    | some name => exact hdirectory name rfl
    | none => exact hcategory

theorem categories_ne_nil (path : Path) (comments : List Entry) {category : Text}
    (hcategory : category ≠ []) :
    (ofEntries path comments category).info.category ≠ [] ∧
      (ofEntries path comments category).info.subcategory ≠ [] :=
  ⟨getD_or_ne_nil (fun _ => ne_nil_of_mem_nonEmpty?) (fun _ => directory_ne_nil) hcategory,
   getD_or_ne_nil (fun _ => ne_nil_of_mem_nonEmpty?) (fun _ => directory_ne_nil) hcategory⟩

end ModuleDoc

end Bookbinder
