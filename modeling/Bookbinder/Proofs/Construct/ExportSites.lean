import Bookbinder.Proofs.Construct.Functions
import Mathlib.Data.List.Infix

/-!
# Where an exported name stands

An exported name stands behind `exports` and one more character, in front of an assigned function
(`IsExport`). That character is a dot where a function expression is assigned. Where an arrow function is
assigned it may be any character but a line feed, so the name need not be that of an export: of
`exportsList`, the letters behind the eighth are taken (`exportedName?_without_dot`). The name is right
whenever a dot follows every `exports` that is continued by a word (`exportedName?_site`).
-/

namespace Bookbinder

open Pattern

/-- Word characters, at least one. -/
def IsWord (t : Text) : Prop := t ≠ [] ∧ ∀ x ∈ t, isWordChar x

instance (t : Text) : Decidable (IsWord t) :=
  have : Decidable (∀ x ∈ t, isWordChar x) := List.decidableBAll _ t
  inferInstanceAs (Decidable (t ≠ [] ∧ ∀ x ∈ t, isWordChar x))

/-- A function expression without a name whose list is closed in the same line. -/
def IsLineExpression (s : Text) : Prop :=
  ∃ w params, IsBlankRun w ∧ '\n' ∉ params ∧ s = "function".toList ++ (w ++ '(' :: (params ++ [')']))

/-- The text is `exports`, the character `mark`, the name and an assigned function. -/
def IsExport (mark : Char) (n s : Text) : Prop :=
  ∃ w₁ w₂ value, s = "exports".toList ++ mark :: (n ++ (w₁ ++ '=' :: (w₂ ++ value))) ∧
    IsBlankRun w₁ ∧ IsBlankRun w₂ ∧
    (IsLineExpression value ∧ mark = '.' ∨ IsArrow value ∧ mark ≠ '\n')

namespace Forms

variable {p q : Pattern} {L : Text → Prop} {before : Option Char} {s after t n : Text} {c : Option Text}

theorem contains_inLine_iff : (∀ x ∈ s, CharClass.inLine.contains x) ↔ '\n' ∉ s := by
  constructor
  · intro h hmem
    exact absurd (h _ hmem) (by decide)
  · intro h x hx
    refine bne_iff_ne.2 ?_
    rintro rfl
    exact h hx

theorem hasLanguage_lineList :
    lineList.HasLanguage fun s => ∃ params, '\n' ∉ params ∧ s = '(' :: (params ++ [')']) := by
  refine (((hasLanguage_literal "(".toList).append (hasLanguage_many .inLine .greedy)).append
    (hasLanguage_literal ")".toList)).congr fun s => ?_
  constructor
  · rintro ⟨_, _, rfl, ⟨_, params, rfl, rfl, hp⟩, rfl⟩
    exact ⟨params, contains_inLine_iff.1 hp, by simp⟩
  · rintro ⟨params, hp, rfl⟩
    exact ⟨'(' :: params, [')'], rfl, ⟨['('], params, rfl, rfl, contains_inLine_iff.2 hp⟩, rfl⟩

theorem hasLanguage_lineExpression :
    ("function" ++ (gap ++ lineList) : Pattern).HasLanguage IsLineExpression := by
  refine ((hasLanguage_literal "function".toList).append
    (hasLanguage_gap.append hasLanguage_lineList)).congr fun s => ?_
  constructor
  · rintro ⟨_, _, rfl, rfl, w, _, rfl, hw, params, hp, rfl⟩
    exact ⟨w, params, hw, hp, rfl⟩
  · rintro ⟨w, params, hw, hp, rfl⟩
    exact ⟨_, _, rfl, rfl, w, _, rfl, hw, params, hp, rfl⟩

/-- A form that captures a word in front of an assignment sign and a value. -/
theorem exists_of_captures_assigned (hp : p.IsPlain) (hq : (assign ++ q).IsPlain) (hL : q.HasLanguage L)
    (h : (p ++ (capture word ++ (assign ++ q))).Matches before s after c) :
    ∃ s₁ n w₁ w₂ value, s = s₁ ++ (n ++ (w₁ ++ '=' :: (w₂ ++ value))) ∧
      (∃ u, p.Matches before s₁ u none) ∧ IsWord n ∧ IsBlankRun w₁ ∧ IsBlankRun w₂ ∧ L value ∧
      c = some n := by
  obtain ⟨s₁, n, s₃, c', rfl, hs₁, hn, hs₃, rfl⟩ := h.capture_between hp hq
  obtain ⟨hne, hword, -⟩ := matches_some1.1 hn
  obtain ⟨_, value, rfl, ⟨w₁, w₂, h₁, h₂, rfl⟩, hvalue⟩ :=
    (hasLanguage_assign.append hL _ _ _).1 ⟨_, hs₃⟩
  exact ⟨s₁, n, w₁, w₂, value, by simp, ⟨_, hs₁⟩, ⟨hne, hword⟩, h₁, h₂, hvalue, rfl⟩

/-- The arrow forms of an export, of whatever value. -/
theorem isExport_of_arrow (hq : assign ++ q ∈ exportTails) (hL : q.HasLanguage L)
    (harrow : ∀ value, L value → IsArrow value)
    (h : ("exports" ++ (one .inLine ++ (capture word ++ (assign ++ q)))).Matches before s after c) :
    ∃ mark n, IsExport mark n s ∧ IsWord n ∧ c = some n := by
  have hp : (literal "exports".toList ++ one .inLine).IsPlain := ⟨isPlain_literal _, trivial⟩
  obtain ⟨_, n, w₁, w₂, value, rfl, ⟨_, e, _, _, _, rfl, he, ⟨⟨mark, hmark, rfl⟩, -⟩, -⟩, hn, h₁, h₂,
    hvalue, rfl⟩ := exists_of_captures_assigned hp (isPlain_of_mem_exportTails hq) hL
      (matches_append_assoc.2 h)
  obtain ⟨rfl, -⟩ := matches_literal.1 he
  refine ⟨mark, n, ⟨w₁, w₂, value, by simp, h₁, h₂, .inr ⟨harrow value hvalue, ?_⟩⟩, hn, rfl⟩
  exact bne_iff_ne.1 hmark

/-- What an export form matches is an export, and its name is captured. -/
theorem isExport_of_matches (h : exportName.Matches before s after c) :
    ∃ mark n, IsExport mark n s ∧ IsWord n ∧ c = some n := by
  obtain ⟨form, hf, hm⟩ := matches_anyOf.1 h
  simp only [exportForms, List.mem_cons, List.not_mem_nil, or_false] at hf
  rcases hf with rfl | rfl | rfl
  · simp only [matches_append_assoc] at hm
    have hp : (start ++ literal "exports.".toList).IsPlain := ⟨trivial, isPlain_literal _⟩
    obtain ⟨_, n, w₁, w₂, value, rfl, ⟨_, _, e, _, _, rfl, ⟨-, rfl, -⟩, he, -⟩, hn, h₁, h₂, hvalue, rfl⟩ :=
      exists_of_captures_assigned hp (isPlain_of_mem_exportTails (by simp [exportTails]))
        hasLanguage_lineExpression (matches_append_assoc.2 hm)
    obtain ⟨rfl, -⟩ := matches_literal.1 he
    exact ⟨'.', n, ⟨w₁, w₂, value, by simp, h₁, h₂, .inl ⟨hvalue, rfl⟩⟩, hn, rfl⟩
  · simp only [matches_append_assoc] at hm
    refine isExport_of_arrow (by simp [exportTails]) hasLanguage_shortList_arrow ?_ hm
    rintro _ ⟨params, w, hw, rfl⟩
    exact ⟨[], params, w, .inl rfl, hw, rfl⟩
  · simp only [matches_append_assoc] at hm
    refine isExport_of_arrow (by simp [exportTails]) ((hasLanguage_literal "async".toList).append
      (hasLanguage_gap.append hasLanguage_shortList_arrow)) ?_ hm
    rintro _ ⟨_, _, rfl, rfl, v, _, rfl, hv, params, w, hw, rfl⟩
    exact ⟨"async".toList ++ v, params, w, .inr ⟨v, hv, rfl⟩, hw, by simp⟩

end Forms

/-! ## Exported names -/

theorem find?_of_exportedName? {t n : Text} (h : exportedName? t = some n) :
    Forms.exportName.find? t = some n := by
  rw [exportedName?, Option.bind_eq_some_iff] at h
  obtain ⟨m, hm, hn⟩ := h
  rw [nonEmpty?] at hn
  split at hn
  · cases hn
  · rw [hm, hn]

/-- The name of an export behind a dot stands in the text with the dot in front of it. -/
theorem IsExport.infix {before s after n : Text} (h : IsExport '.' n s) :
    "exports.".toList ++ n <:+: before ++ (s ++ after) := by
  obtain ⟨w₁, w₂, value, rfl, -⟩ := h
  exact ⟨before, w₁ ++ '=' :: (w₂ ++ value) ++ after, by simp⟩

/-- An exported name is a word behind `exports` and one more character, with a function assigned to it.
In a text where that character is a dot in all such places, the name stands behind `exports.`. -/
theorem exportedName?_site {t n : Text} (h : exportedName? t = some n) :
    IsWord n ∧ (∃ before mark s after, t = before ++ (s ++ after) ∧ IsExport mark n s) ∧
    ((∀ before mark m s after, t = before ++ (s ++ after) → IsExport mark m s → mark = '.') →
      "exports.".toList ++ n <:+: t) := by
  obtain ⟨before, s, after, c, ht, hm, hc⟩ := exists_matches_of_find? (find?_of_exportedName? h)
  obtain ⟨mark, m, hs, hword, rfl⟩ := Forms.isExport_of_matches hm
  obtain rfl : n = m := hc
  rw [List.append_assoc] at ht
  refine ⟨hword, ⟨before, mark, s, after, ht, hs⟩, fun hdot => ?_⟩
  obtain rfl := hdot before mark n s after ht hs
  rw [ht]
  exact hs.infix

/-- A handler that is exported from a module. -/
def exportedHandler : Text := "module.exports.handler = async (event) => event.body".toList

theorem exportedName?_site_handler : exportedName? exportedHandler = some "handler".toList ∧
    (∃ before mark s after, exportedHandler = before ++ (s ++ after) ∧
      IsExport mark "handler".toList s) ∧
    "exports.".toList ++ "handler".toList <:+: exportedHandler := by
  have h : exportedName? exportedHandler = some "handler".toList := by decide +kernel
  obtain ⟨-, hsite, hinfix⟩ := exportedName?_site h
  refine ⟨h, hsite, hinfix ?_⟩
  rintro before mark m _ after ht ⟨w₁, w₂, value, rfl, -⟩
  have hdot : ∀ u ∈ exportedHandler.tails, "exports".toList <+: u → u[7]? = some '.' := by
    decide +kernel
  have hmark := hdot _ ((List.mem_tails _ _).2 ⟨before, ht.symm⟩) ⟨_, (List.append_assoc ..).symm⟩
  exact Option.some.inj hmark

/-- An arrow function that a variable is set to, the variable's name starting with `exports`. -/
def exportsList : Text := "const exportsList = (items) => items".toList

/-- The search takes the end of the variable's name for the name of an export, though there is no dot
in the text. -/
theorem exportedName?_without_dot : exportedName? exportsList = some "ist".toList ∧
    ¬ "exports.".toList ++ "ist".toList <:+: exportsList := by
  refine ⟨by decide +kernel, fun h => ?_⟩
  have hdot : '.' ∈ exportsList := h.mem (by decide)
  exact absurd hdot (by decide +kernel)

end Bookbinder
