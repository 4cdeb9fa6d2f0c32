import Bookbinder.Proofs.Construct.Exports
import Bookbinder.Proofs.Link.Names
import Bookbinder.Proofs.Pattern.Language
import Bookbinder.Proofs.Text.Trimming

/-!
# Texts that show a function

Seven forms decide whether a text shows a function, and several of them overlap. They come down to three
things that can be looked for by hand (`functionRule_applies_iff`): the word `function`, an arrow
function behind an assignment sign (`IsArrow`), and a function expression behind an assignment sign
(`IsExpression`). In front of the sign a single word character is enough.
-/

namespace Bookbinder

open Pattern

variable {t : Text}

/-! ## What is looked for -/

/-- A word character, an assignment sign and a text with the property stand one behind the other, with
nothing but blanks between them. -/
def Assigns (value : Text → Prop) (t : Text) : Prop :=
  ∃ before x w₁ w₂ s after, isWordChar x ∧ IsBlankRun w₁ ∧ IsBlankRun w₂ ∧ value s ∧
    t = before ++ x :: (w₁ ++ '=' :: (w₂ ++ (s ++ after)))

/-- Perhaps `async`, then a list in parentheses and an arrow. -/
def IsArrow (s : Text) : Prop :=
  ∃ lead params w, (lead = [] ∨ ∃ v, IsBlankRun v ∧ lead = "async".toList ++ v) ∧ IsBlankRun w ∧
    s = lead ++ '(' :: (params ++ ')' :: (w ++ "=>".toList))

/-- The letters `function` and some text up to an opening parenthesis. -/
def IsExpression (s : Text) : Prop := ∃ v, s = "function".toList ++ (v ++ ['('])

theorem Assigns.mono {P Q : Text → Prop} (h : ∀ s, P s → Q s) (ht : Assigns P t) : Assigns Q t := by
  obtain ⟨before, x, w₁, w₂, s, after, hx, h₁, h₂, hs, rfl⟩ := ht
  exact ⟨before, x, w₁, w₂, s, after, hx, h₁, h₂, h s hs, rfl⟩

theorem assigns_or {P Q : Text → Prop} :
    Assigns (fun s => P s ∨ Q s) t ↔ Assigns P t ∨ Assigns Q t := by
  constructor
  · rintro ⟨before, x, w₁, w₂, s, after, hx, h₁, h₂, hs | hs, rfl⟩
    · exact .inl ⟨before, x, w₁, w₂, s, after, hx, h₁, h₂, hs, rfl⟩
    · exact .inr ⟨before, x, w₁, w₂, s, after, hx, h₁, h₂, hs, rfl⟩
  · rintro (h | h)
    · exact h.mono fun s => .inl
    · exact h.mono fun s => .inr

namespace Forms

/-! ## The languages of the parts -/

theorem hasLanguage_gap : gap.HasLanguage IsBlankRun := hasLanguage_many .blank .greedy

theorem hasLanguage_inside : inside.HasLanguage fun _ => True :=
  (hasLanguage_many .any .reluctant).congr fun s => by simp [CharClass.contains]

theorem hasLanguage_assign :
    assign.HasLanguage fun s => ∃ w₁ w₂, IsBlankRun w₁ ∧ IsBlankRun w₂ ∧ s = w₁ ++ '=' :: w₂ := by
  refine ((hasLanguage_gap.append (hasLanguage_literal _)).append hasLanguage_gap).congr fun s => ?_
  constructor
  · rintro ⟨_, w₂, rfl, ⟨w₁, _, rfl, h₁, rfl⟩, h₂⟩
    exact ⟨w₁, w₂, h₁, h₂, by simp⟩
  · rintro ⟨w₁, w₂, h₁, h₂, rfl⟩
    exact ⟨w₁ ++ ['='], w₂, by simp, ⟨w₁, ['='], rfl, h₁, rfl⟩, h₂⟩

theorem hasLanguage_shortList_arrow :
    (shortList ++ arrow).HasLanguage fun s =>
      ∃ params w, IsBlankRun w ∧ s = '(' :: (params ++ ')' :: (w ++ "=>".toList)) := by
  have hlist := ((hasLanguage_literal "(".toList).append hasLanguage_inside).append
    (hasLanguage_literal ")".toList)
  have harrow := hasLanguage_gap.append (hasLanguage_literal "=>".toList)
  refine (hlist.append harrow).congr fun s => ?_
  constructor
  · rintro ⟨_, _, rfl, ⟨_, _, rfl, ⟨_, params, rfl, rfl, -⟩, rfl⟩, w, _, rfl, hw, rfl⟩
    exact ⟨params, w, hw, by simp⟩
  · rintro ⟨params, w, hw, rfl⟩
    exact ⟨"(".toList ++ params ++ ")".toList, w ++ "=>".toList, by simp,
      ⟨_, _, rfl, ⟨_, params, rfl, rfl, trivial⟩, rfl⟩, w, _, rfl, hw, rfl⟩

/-- A value with a language stands behind an assignment sign. -/
theorem occursIn_assign_iff {q : Pattern} {L : Text → Prop} (h : q.HasLanguage L) :
    (one .word ++ (assign ++ q)).occursIn t ↔ Assigns L t := by
  rw [((hasLanguage_one .word).append (hasLanguage_assign.append h)).occursIn_iff]
  constructor
  · rintro ⟨before, _, after, rfl, _, _, rfl, ⟨x, hx, rfl⟩, _, s, rfl, ⟨w₁, w₂, h₁, h₂, rfl⟩, hs⟩
    exact ⟨before, x, w₁, w₂, s, after, hx, h₁, h₂, hs, by simp⟩
  · rintro ⟨before, x, w₁, w₂, s, after, hx, h₁, h₂, hs, rfl⟩
    exact ⟨before, [x] ++ (w₁ ++ '=' :: w₂ ++ s), after, by simp, [x], _, rfl, ⟨x, hx, rfl⟩, _, s, rfl,
      ⟨w₁, w₂, h₁, h₂, rfl⟩, hs⟩

/-! ## The forms -/

/-- The keyword form looks for the word alone. -/
theorem occursIn_functionKeyword_iff :
    functionKeyword.occursIn t ↔ StandsIn "function".toList t := by
  have hne : "function".toList ≠ [] := by decide
  have hword : ∀ x ∈ "function".toList, isWordChar x := List.all_eq_true.1 (by decide)
  rw [functionKeyword, occursIn_append_assoc, occursIn_append_assoc, occursIn_optional_append,
    occursIn_wholeWord_iff hne hword]
  constructor
  · rintro ⟨a, b, rfl, ha, hb⟩
    exact ⟨a, b, by simp, hne, hword, ha, hb⟩
  · rintro ⟨a, b, h⟩
    exact ⟨a, b, by rw [h.eq, List.append_assoc], h.before, h.after⟩

/-- The arrow forms with a list that may span lines. -/
theorem occursIn_arrow_iff :
    (one .word ++ (assign ++ (shortList ++ arrow))).occursIn t ∨
        (one .word ++ (assign ++ ("async" ++ (gap ++ (shortList ++ arrow))))).occursIn t ↔
      Assigns IsArrow t := by
  have hasync := (hasLanguage_literal "async".toList).append
    (hasLanguage_gap.append hasLanguage_shortList_arrow)
  rw [occursIn_assign_iff hasLanguage_shortList_arrow, occursIn_assign_iff hasync, ← assigns_or]
  constructor
  · refine Assigns.mono ?_
    rintro s (⟨params, w, hw, rfl⟩ | ⟨_, _, rfl, rfl, v, _, rfl, hv, params, w, hw, rfl⟩)
    · exact ⟨[], params, w, .inl rfl, hw, rfl⟩
    · exact ⟨"async".toList ++ v, params, w, .inr ⟨v, hv, rfl⟩, hw, by simp⟩
  · refine Assigns.mono ?_
    rintro _ ⟨_, params, w, rfl | ⟨v, hv, rfl⟩, hw, rfl⟩
    · exact .inl ⟨params, w, hw, rfl⟩
    · exact .inr ⟨_, _, List.append_assoc .., rfl, v, _, rfl, hv, params, w, hw, rfl⟩

/-- The arrow forms with a list in one line ask for more. -/
theorem assigns_of_lineList
    (h : (some1 .word ++ (assign ++ ("async" ++ (gap ++ (lineList ++ arrow))))).occursIn t) :
    Assigns IsArrow t := by
  rw [occursIn_some1_append] at h
  refine occursIn_arrow_iff.1 (.inr (Within.occursIn ?_ h))
  exact (Within.refl _).append ((Within.refl _).append ((Within.refl _).append
    ((Within.refl _).append (lineList_within_shortList.append (Within.refl _)))))

theorem hasLanguage_expression :
    ("function" ++ (gap ++ (inside ++ "(")) : Pattern).HasLanguage IsExpression := by
  refine ((hasLanguage_literal "function".toList).append (hasLanguage_gap.append
    (hasLanguage_inside.append (hasLanguage_literal "(".toList)))).congr fun s => ?_
  constructor
  · rintro ⟨_, _, rfl, rfl, w, _, rfl, -, v, _, rfl, -, rfl⟩
    exact ⟨w ++ v, by simp⟩
  · rintro ⟨v, rfl⟩
    exact ⟨_, _, rfl, rfl, [], _, rfl, by simp [IsBlankRun], v, _, rfl, trivial, rfl⟩

/-- The form with the parenthesis right behind the keyword asks for more. -/
theorem assigns_of_bareKeyword
    (h : (one .word ++ (assign ++ ("function" ++ (gap ++ "(")))).occursIn t) :
    Assigns IsExpression t := by
  have hbare := (hasLanguage_literal "function".toList).append
    (hasLanguage_gap.append (hasLanguage_literal "(".toList))
  refine ((occursIn_assign_iff hbare).1 h).mono ?_
  rintro _ ⟨_, _, rfl, rfl, w, _, rfl, -, rfl⟩
  exact ⟨w, rfl⟩

end Forms

/-! ## The rule -/

/-- A text shows a function if and only if the word `function` stands in it, or an arrow function is
assigned in it, or a function expression is assigned in it. -/
theorem functionRule_applies_iff (arrowNames : Bool) (t : Text) :
    (functionRule arrowNames).applies t ↔
      StandsIn "function".toList t ∨ Assigns IsArrow t ∨ Assigns IsExpression t := by
  show Forms.functionPattern.occursIn t ↔ _
  rw [Forms.functionPattern, occursIn_anyOf]
  constructor
  · rintro ⟨form, hform, h⟩
    simp only [Forms.functionForms, List.mem_cons, List.not_mem_nil, or_false] at hform
    rcases hform with rfl | rfl | rfl | rfl | rfl | rfl | rfl
    · exact .inl (Forms.occursIn_functionKeyword_iff.1 h)
    · simp only [occursIn_append_assoc] at h
      have hword := occursIn_right_of_append (occursIn_right_of_append h)
      exact .inr (.inl (Forms.assigns_of_lineList hword))
    · simp only [occursIn_append_assoc] at h
      have hword := occursIn_right_of_append (occursIn_right_of_append
        (occursIn_right_of_append (occursIn_right_of_append h)))
      exact .inr (.inl (Forms.assigns_of_lineList hword))
    · simp only [occursIn_append_assoc] at h
      exact .inr (.inr (Forms.assigns_of_bareKeyword (occursIn_boundary_word_iff.1 h)))
    · simp only [occursIn_append_assoc] at h
      exact .inr (.inl (Forms.occursIn_arrow_iff.1 (.inl (occursIn_boundary_word_iff.1 h))))
    · simp only [occursIn_append_assoc] at h
      exact .inr (.inl (Forms.occursIn_arrow_iff.1 (.inr (occursIn_boundary_word_iff.1 h))))
    · simp only [occursIn_append_assoc] at h
      exact .inr (.inr ((Forms.occursIn_assign_iff Forms.hasLanguage_expression).1
        (occursIn_boundary_word_iff.1 h)))
  · rintro (h | h | h)
    · exact ⟨_, List.mem_of_getElem? (i := 0) rfl, Forms.occursIn_functionKeyword_iff.2 h⟩
    · rcases Forms.occursIn_arrow_iff.2 h with h | h
      · refine ⟨_, List.mem_of_getElem? (i := 4) rfl, ?_⟩
        simp only [occursIn_append_assoc]
        exact occursIn_boundary_word_iff.2 h
      · refine ⟨_, List.mem_of_getElem? (i := 5) rfl, ?_⟩
        simp only [occursIn_append_assoc]
        exact occursIn_boundary_word_iff.2 h
    · refine ⟨_, List.mem_of_getElem? (i := 6) rfl, ?_⟩
      simp only [occursIn_append_assoc]
      exact occursIn_boundary_word_iff.2
        ((Forms.occursIn_assign_iff Forms.hasLanguage_expression).2 h)

end Bookbinder
