import Bookbinder.Json.Parser
import Bookbinder.Json.Printer

/-!
# Spellings of JSON values

`Json.Spells j s` says that `s` is a way to write the value `j`: the grammar of values, with any white
space between the tokens. Numbers other than naturals are left out, since a value keeps the literal of
such a number whatever it is.

Both layouts spell the value they are given, provided that it is made of names, texts, naturals and the
like (`IsData`): `spells_compact` and `spells_pretty`.
-/

namespace Bookbinder.Json

/-- White space between tokens. -/
def IsGap (g : Text) : Prop := ∀ x ∈ g, isSpace x

mutual

/-- The text is a way to write the value. -/
inductive Spells : Json → Text → Prop
  | null : Spells null "null".toList
  | boolTrue : Spells (bool true) "true".toList
  | boolFalse : Spells (bool false) "false".toList
  | nat (n : Nat) : Spells (nat n) (decimal n)
  | str (t : Text) : Spells (str t) (quote t)
  | emptyArr {g : Text} (hg : IsGap g) : Spells (arr []) ('[' :: (g ++ [']']))
  | arr {items : List Json} {g s g' : Text} (hg : IsGap g) (hs : SpellsItems items s)
      (hg' : IsGap g') : Spells (arr items) ('[' :: (g ++ (s ++ (g' ++ [']']))))
  | emptyObj {g : Text} (hg : IsGap g) : Spells (obj []) ('{' :: (g ++ ['}']))
  | obj {fields : List (Text × Json)} {g s g' : Text} (hg : IsGap g) (hs : SpellsFields fields s)
      (hg' : IsGap g') : Spells (obj fields) ('{' :: (g ++ (s ++ (g' ++ ['}']))))

/-- The text is a way to write the values with commas between them; there is at least one. -/
inductive SpellsItems : List Json → Text → Prop
  | last {j : Json} {s : Text} (hs : Spells j s) : SpellsItems [j] s
  | cons {j : Json} {js : List Json} {s g g' s' : Text} (hs : Spells j s) (hg : IsGap g)
      (hg' : IsGap g') (hs' : SpellsItems js s') :
      SpellsItems (j :: js) (s ++ (g ++ ',' :: (g' ++ s')))

/-- The text is a way to write the field. -/
inductive SpellsField : Text × Json → Text → Prop
  | mk {name : Text} {j : Json} {g g' s : Text} (hg : IsGap g) (hg' : IsGap g') (hs : Spells j s) :
      SpellsField (name, j) (quote name ++ (g ++ ':' :: (g' ++ s)))

/-- The text is a way to write the fields with commas between them; there is at least one. -/
inductive SpellsFields : List (Text × Json) → Text → Prop
  | last {f : Text × Json} {s : Text} (hs : SpellsField f s) : SpellsFields [f] s
  | cons {f : Text × Json} {fs : List (Text × Json)} {s g g' s' : Text} (hs : SpellsField f s)
      (hg : IsGap g) (hg' : IsGap g') (hs' : SpellsFields fs s') :
      SpellsFields (f :: fs) (s ++ (g ++ ',' :: (g' ++ s')))

end

/-- The value has no number other than naturals in it, and no text that cannot be written. -/
inductive IsData : Json → Prop
  | null : IsData null
  | bool (b : Bool) : IsData (bool b)
  | nat (n : Nat) : IsData (nat n)
  | str (t : Text) : IsData (str t)
  | arr {items : List Json} (h : ∀ j ∈ items, IsData j) : IsData (arr items)
  | obj {fields : List (Text × Json)} (h : ∀ f ∈ fields, IsData f.2) : IsData (obj fields)

theorem isGap_nil : IsGap [] := fun _ hx => absurd hx List.not_mem_nil

theorem isGap_newline (level : Nat) : IsGap (newline level) := by
  intro x hx
  rcases List.mem_cons.1 hx with rfl | hx
  · decide
  · rw [List.eq_of_mem_replicate hx]
    decide

/-! ## One line -/

theorem spellsItems_compactItems {items : List Json} (hne : items ≠ [])
    (h : ∀ j ∈ items, Spells j (compact j)) : SpellsItems items (compactItems items) := by
  induction items with
  | nil => exact absurd rfl hne
  | cons j js ih =>
    have hj := h j (by simp)
    cases js with
    | nil => exact .last hj
    | cons k js =>
      exact .cons hj isGap_nil isGap_nil (ih (by simp) fun i hi => h i (List.mem_cons_of_mem _ hi))

theorem spellsFields_compactFields {fields : List (Text × Json)} (hne : fields ≠ [])
    (h : ∀ f ∈ fields, Spells f.2 (compact f.2)) : SpellsFields fields (compactFields fields) := by
  induction fields with
  | nil => exact absurd rfl hne
  | cons f fs ih =>
    obtain ⟨name, j⟩ := f
    have hf : SpellsField (name, j) (quote name ++ ':' :: compact j) :=
      .mk isGap_nil isGap_nil (h (name, j) (by simp))
    cases fs with
    | nil => exact .last hf
    | cons k fs =>
      exact .cons hf isGap_nil isGap_nil (ih (by simp) fun i hi => h i (List.mem_cons_of_mem _ hi))

theorem spells_compact {j : Json} (h : j.IsData) : Spells j (compact j) := by
  induction h with
  | null => exact .null
  | bool b =>
    cases b with
    | true => exact .boolTrue
    | false => exact .boolFalse
  | nat n => exact .nat n
  | str t => exact .str t
  | @arr items _ ih =>
    by_cases hne : items = []
    · subst hne
      exact .emptyArr isGap_nil
    · exact .arr isGap_nil (spellsItems_compactItems hne ih) isGap_nil
  | @obj fields _ ih =>
    by_cases hne : fields = []
    · subst hne
      exact .emptyObj isGap_nil
    · exact .obj isGap_nil (spellsFields_compactFields hne ih) isGap_nil

/-! ## Several lines -/

/-- Each item stands on a line of its own, so the text of the items starts with a gap. -/
theorem prettyItems_spells {level : Nat} {items : List Json} (hne : items ≠ [])
    (h : ∀ j ∈ items, Spells j (prettyAt level j)) :
    ∃ s, SpellsItems items s ∧ prettyItems level items = newline level ++ s := by
  induction items with
  | nil => exact absurd rfl hne
  | cons j js ih =>
    have hj := h j (by simp)
    cases js with
    | nil => exact ⟨_, .last hj, rfl⟩
    | cons k js =>
      obtain ⟨s, hs, he⟩ := ih (by simp) fun i hi => h i (List.mem_cons_of_mem _ hi)
      refine ⟨_, .cons hj isGap_nil (isGap_newline level) hs, ?_⟩
      simp [prettyItems, he]

theorem prettyFields_spells {level : Nat} {fields : List (Text × Json)} (hne : fields ≠ [])
    (h : ∀ f ∈ fields, Spells f.2 (prettyAt level f.2)) :
    ∃ s, SpellsFields fields s ∧ prettyFields level fields = newline level ++ s := by
  induction fields with
  | nil => exact absurd rfl hne
  | cons f fs ih =>
    obtain ⟨name, j⟩ := f
    have hspace : IsGap [' '] := by
      intro x hx
      rw [List.mem_singleton.1 hx]
      decide
    have hf : SpellsField (name, j) (quote name ++ ':' :: ([' '] ++ prettyAt level j)) :=
      .mk isGap_nil hspace (h (name, j) (by simp))
    cases fs with
    | nil => exact ⟨_, .last hf, by simp [prettyFields]⟩
    | cons k fs =>
      obtain ⟨s, hs, he⟩ := ih (by simp) fun i hi => h i (List.mem_cons_of_mem _ hi)
      refine ⟨_, .cons hf isGap_nil (isGap_newline level) hs, ?_⟩
      simp [prettyFields, he]

theorem spells_prettyAt {j : Json} (h : j.IsData) (level : Nat) : Spells j (prettyAt level j) := by
  induction h generalizing level with
  | null => exact .null
  | bool b =>
    cases b with
    | true => exact .boolTrue
    | false => exact .boolFalse
  | nat n => exact .nat n
  | str t => exact .str t
  | @arr items _ ih =>
    cases items with
    | nil => exact .emptyArr isGap_nil
    | cons j js =>
      obtain ⟨s, hs, he⟩ :=
        prettyItems_spells (List.cons_ne_nil j js) fun i hi => ih i hi (level + 1)
      simpa [prettyAt, he] using Spells.arr (isGap_newline (level + 1)) hs (isGap_newline level)
  | @obj fields _ ih =>
    cases fields with
    | nil => exact .emptyObj isGap_nil
    | cons f fs =>
      obtain ⟨s, hs, he⟩ :=
        prettyFields_spells (List.cons_ne_nil f fs) fun i hi => ih i hi (level + 1)
      simpa [prettyAt, he] using Spells.obj (isGap_newline (level + 1)) hs (isGap_newline level)

theorem spells_pretty {j : Json} (h : j.IsData) : Spells j (pretty j) := spells_prettyAt h 0

end Bookbinder.Json
