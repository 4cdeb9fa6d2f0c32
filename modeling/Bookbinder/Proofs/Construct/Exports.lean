import Bookbinder.Construct.Classifier
import Bookbinder.Proofs.Pattern.Occurrence

/-!
# Export assignments

An assignment of a function to `exports` decides kind and name of a construct, whatever else stands in
the text. Three families of forms have to agree for this: where an export form occurs, so does a
function form (`functionPattern_occursIn_of_export`) and a naming form
(`functionName_occursIn_of_export`). Both hold because each export form is a naming form behind a few
more characters, and a function form once the exported name is completed to a whole word.
-/

namespace Bookbinder

open Pattern

namespace Forms

variable {t n : Text}

/-! ## Parts of the forms -/

theorem isPlain_assign : assign.IsPlain :=
  ⟨⟨trivial, isPlain_literal _⟩, trivial⟩

theorem isPlain_arrow : arrow.IsPlain := ⟨trivial, isPlain_literal _⟩

theorem isPlain_shortList : shortList.IsPlain :=
  ⟨⟨isPlain_literal _, trivial⟩, isPlain_literal _⟩

theorem isPlain_lineList : lineList.IsPlain :=
  ⟨⟨isPlain_literal _, trivial⟩, isPlain_literal _⟩

/-- A list that ends in its line is a list. -/
theorem lineList_within_shortList : lineList.Within shortList :=
  ((Within.refl _).append (many_within (fun _ _ => rfl) _ _)).append (Within.refl _)

/-- A parameter list with an arrow behind it is what the arrow forms of a name look for. -/
theorem shortList_arrow_within : (shortList ++ arrow).Within ("(" ++ capture inside ++ ")" ++ arrow) :=
  (((Within.refl _).append (within_capture _)).append (Within.refl _)).append (Within.refl _)

/-! ## The forms of an export -/

/-- What follows the exported name. -/
def exportTails : List Pattern :=
  [assign ++ ("function" ++ (gap ++ lineList)), assign ++ (shortList ++ arrow),
   assign ++ ("async" ++ (gap ++ (shortList ++ arrow)))]

theorem isPlain_of_mem_exportTails {tail : Pattern} (h : tail ∈ exportTails) : tail.IsPlain := by
  simp only [exportTails, List.mem_cons, List.not_mem_nil, or_false] at h
  rcases h with rfl | rfl | rfl
  · exact ⟨isPlain_assign, isPlain_literal _, trivial, isPlain_lineList⟩
  · exact ⟨isPlain_assign, isPlain_shortList, isPlain_arrow⟩
  · exact ⟨isPlain_assign, isPlain_literal _, trivial, isPlain_shortList, isPlain_arrow⟩

/-- Every export form is two parts without a capture, the captured name, and one of the tails. -/
theorem exists_tail_of_exportName {before : Option Char} {s after : Text} {c : Option Text}
    (h : exportName.Matches before s after c) :
    ∃ p q tail, p.IsPlain ∧ q.IsPlain ∧ tail ∈ exportTails ∧
      (p ++ (q ++ (capture word ++ tail))).Matches before s after c := by
  obtain ⟨form, hf, hm⟩ := matches_anyOf.1 h
  simp only [exportForms, List.mem_cons, List.not_mem_nil, or_false] at hf
  rcases hf with rfl | rfl | rfl
  · simp only [matches_append_assoc] at hm
    refine ⟨_, _, _, ?_, ?_, ?_, hm⟩
    · trivial
    · exact isPlain_literal _
    · simp [exportTails]
  · simp only [matches_append_assoc] at hm
    refine ⟨_, _, _, ?_, ?_, ?_, hm⟩
    · exact isPlain_literal _
    · trivial
    · simp [exportTails]
  · simp only [matches_append_assoc] at hm
    refine ⟨_, _, _, ?_, ?_, ?_, hm⟩
    · exact isPlain_literal _
    · trivial
    · simp [exportTails]

/-- What an export search returns is a word. -/
theorem word_of_exportName_find? (h : exportName.find? t = some n) :
    n ≠ [] ∧ ∀ x ∈ n, isWordChar x := by
  obtain ⟨pre, s, post, c, rfl, hm, hn⟩ := exists_matches_of_find? h
  obtain ⟨p, q, tail, hp, hq, htail, hm⟩ := exists_tail_of_exportName hm
  have hm := matches_append_assoc.2 hm
  obtain ⟨s₁, m, s₃, c', rfl, -, hword, -, rfl⟩ :=
    hm.capture_between (isPlain_append.2 ⟨hp, hq⟩) (isPlain_of_mem_exportTails htail)
  obtain ⟨hne, hall, -⟩ := matches_some1.1 hword
  subst hn
  exact ⟨hne, hall⟩

/-- Where an export form occurs, a name with one of the tails does. -/
theorem exists_occursIn_of_export (h : exportName.occursIn t) :
    ∃ q tail, tail ∈ exportTails ∧ (q ++ (capture word ++ tail)).occursIn t := by
  obtain ⟨pre, s, post, c, rfl, hm⟩ := occursIn_iff.1 h
  obtain ⟨p, q, tail, -, -, htail, hm⟩ := exists_tail_of_exportName hm
  exact ⟨q, tail, htail, occursIn_right_of_append (occursIn_iff.2 ⟨pre, s, post, c, rfl, hm⟩)⟩

/-! ## Exports are functions with a name -/

theorem functionPattern_occursIn_of_export (h : exportName.occursIn t) :
    functionPattern.occursIn t := by
  obtain ⟨q, tail, htail, ht⟩ := exists_occursIn_of_export h
  have hw := ((Within.refl q).append ((capture_within word).append (Within.refl tail))).occursIn ht
  have hb := occursIn_boundary_word hw
  refine occursIn_anyOf.2 ?_
  simp only [exportTails, List.mem_cons, List.not_mem_nil, or_false] at htail
  rcases htail with rfl | rfl | rfl
  · -- The opening parenthesis of the list is enough.
    simp only [lineList, ← occursIn_append_assoc] at hb
    have hb := occursIn_left_of_append hb
    rw [← occursIn_append_assoc] at hb
    exact ⟨_, List.mem_of_getElem? (i := 3) rfl, occursIn_left_of_append hb⟩
  · simp only [← occursIn_append_assoc] at hb
    exact ⟨_, List.mem_of_getElem? (i := 4) rfl, hb⟩
  · simp only [← occursIn_append_assoc] at hb
    exact ⟨_, List.mem_of_getElem? (i := 5) rfl, hb⟩

theorem functionName_occursIn_of_export (h : exportName.occursIn t) : functionName.occursIn t := by
  obtain ⟨q, tail, htail, ht⟩ := exists_occursIn_of_export h
  refine occursIn_anyOf.2 ?_
  simp only [exportTails, List.mem_cons, List.not_mem_nil, or_false] at htail
  rcases htail with rfl | rfl | rfl
  · have hw := occursIn_right_of_append ht
    simp only [← occursIn_append_assoc] at hw
    exact ⟨_, List.mem_of_getElem? (i := 3) rfl,
      ((Within.refl _).append lineList_within_shortList).occursIn hw⟩
  · have hl := occursIn_right_of_append (occursIn_right_of_append (occursIn_right_of_append ht))
    exact ⟨_, List.mem_of_getElem? (i := 2) rfl, shortList_arrow_within.occursIn hl⟩
  · have hl := occursIn_right_of_append (occursIn_right_of_append (occursIn_right_of_append
      (occursIn_right_of_append (occursIn_right_of_append ht))))
    exact ⟨_, List.mem_of_getElem? (i := 2) rfl, shortList_arrow_within.occursIn hl⟩

end Forms

/-! ## Naming -/

variable {t n : Text}

theorem exportedName?_of_find? (h : Forms.exportName.find? t = some n) : exportedName? t = some n := by
  obtain ⟨hne, -⟩ := Forms.word_of_exportName_find? h
  rw [exportedName?, h, Option.bind_some, nonEmpty?, if_neg (by simpa using hne)]

theorem functionName?_of_export (arrowNames : Bool) (h : Forms.exportName.find? t = some n) :
    functionName? arrowNames t = some n := by
  have hx : Forms.exportName.occursIn t := by rw [occursIn, h]; rfl
  obtain ⟨declared, hd⟩ :=
    Option.isSome_iff_exists.1 (Forms.functionName_occursIn_of_export hx)
  rw [functionName?, hd, exportedName?_of_find? h]

/-- Only texts without a function form are modules, so there is no exported name to take. -/
theorem exportedName?_of_not_function (h : Forms.functionPattern.occursIn t = false) :
    exportedName? t = none := by
  have hx : Forms.exportName.find? t = none := by
    rw [← Option.not_isSome_iff_eq_none]
    intro hx
    rw [Forms.functionPattern_occursIn_of_export hx] at h
    cases h
  rw [exportedName?, hx, Option.bind_none]

/-- An export assignment makes a text a function of the exported name, under either setting of
`arrowNames`: the function rule applies, its naming forms do not lose the name, and the name is a word.
A module is thus named by its tag alone, never by an export. -/
theorem classify_export (arrowNames : Bool) (t : Text) :
    (∀ n, Forms.exportName.find? t = some n →
      classify arrowNames t = ⟨.function, some n⟩ ∧ n ≠ [] ∧ (∀ x ∈ n, isWordChar x) ∧
        (functionRule arrowNames).applies t ∧ (Forms.functionName.find? t).isSome) ∧
    ((classify arrowNames t).kind = .module → exportedName? t = none ∧
      (classify arrowNames t).name? =
        (Forms.moduleTag.find? t).bind fun value => (words value).head?) := by
  constructor
  · intro n h
    have hx : Forms.exportName.occursIn t := by rw [occursIn, h]; rfl
    have hf := Forms.functionPattern_occursIn_of_export hx
    obtain ⟨hne, hword⟩ := Forms.word_of_exportName_find? h
    refine ⟨?_, hne, hword, hf, Forms.functionName_occursIn_of_export hx⟩
    rw [classify_eq, if_pos hf, functionName?_of_export arrowNames h]
  · intro h
    rw [classify_eq] at h ⊢
    split at h
    · cases h
    · rename_i hf
      have hx := exportedName?_of_not_function (Bool.eq_false_iff.2 hf)
      refine ⟨hx, ?_⟩
      split at h
      · rename_i hm
        rw [if_neg hf, if_pos hm, moduleTagName?, hx]
        rfl
      · split at h
        · cases h
        · split at h <;> cases h

/-- A tag and an export in one line: the export wins. A tag alone names a module. -/
theorem classify_export_after_tag :
    let both : Text := "@module billingexports.charge = (amount) => amount".toList
    let tag : Text := "@module billing helpers".toList
    Forms.exportName.find? both = some "charge".toList ∧
      classify true both = ⟨.function, some "charge".toList⟩ ∧
      (classify true tag).kind = .module ∧ exportedName? tag = none := by
  have hx : Forms.exportName.find? "@module billingexports.charge = (amount) => amount".toList =
      some "charge".toList := by decide +kernel
  have hm : (classify true "@module billing helpers".toList).kind = .module := by decide +kernel
  exact ⟨hx, ((classify_export true _).1 _ hx).1, hm, ((classify_export true _).2 hm).1⟩

end Bookbinder
