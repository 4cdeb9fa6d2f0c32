import Bookbinder.Proofs.Pattern.Occurrence

/-!
# The language of a pattern

A pattern that looks at nothing but the stretch it matches has a language (`Pattern.HasLanguage`): a
predicate that decides which stretches match, wherever they stand. Languages are built along the
pattern, one rule per constructor, and such a pattern occurs in a text exactly where a member of its
language stands (`HasLanguage.occursIn_iff`).

Boundaries look around, so they have no language. Two rules take them out of a sequence: a whole word
between boundaries is a word that stands alone (`occursIn_wholeWord_iff`), and of a word that starts at
a boundary only the last character counts (`occursIn_boundary_word_iff`).
-/

namespace Bookbinder.Pattern

variable {p q r : Pattern} {L M : Text → Prop} {t : Text}

/-- The pattern matches exactly the stretches in `L`, whatever stands around them. -/
def HasLanguage (p : Pattern) (L : Text → Prop) : Prop :=
  ∀ before s after, (∃ c, p.Matches before s after c) ↔ L s

/-! ## Rules -/

theorem HasLanguage.congr (h : p.HasLanguage L) (hLM : ∀ s, L s ↔ M s) : p.HasLanguage M :=
  fun before s after => (h before s after).trans (hLM s)

theorem hasLanguage_one (k : CharClass) :
    (one k).HasLanguage fun s => ∃ x, k.contains x ∧ s = [x] := by
  intro before s after
  constructor
  · rintro ⟨c, hx, -⟩
    exact hx
  · intro hx
    exact ⟨none, hx, rfl⟩

theorem hasLanguage_many (k : CharClass) (e : Appetite) :
    (many k e).HasLanguage fun s => ∀ x ∈ s, k.contains x := by
  intro before s after
  constructor
  · rintro ⟨c, hs, -⟩
    exact hs
  · intro hs
    exact ⟨none, hs, rfl⟩

theorem HasLanguage.append (hp : p.HasLanguage L) (hq : q.HasLanguage M) :
    (p ++ q).HasLanguage fun s => ∃ s₁ s₂, s = s₁ ++ s₂ ∧ L s₁ ∧ M s₂ := by
  intro before s after
  constructor
  · rintro ⟨c, s₁, s₂, c₁, c₂, rfl, h₁, h₂, -⟩
    exact ⟨s₁, s₂, rfl, (hp _ _ _).1 ⟨c₁, h₁⟩, (hq _ _ _).1 ⟨c₂, h₂⟩⟩
  · rintro ⟨s₁, s₂, rfl, h₁, h₂⟩
    obtain ⟨c₁, h₁⟩ := (hp before s₁ (s₂ ++ after)).2 h₁
    obtain ⟨c₂, h₂⟩ := (hq (charBefore before s₁) s₂ after).2 h₂
    exact ⟨_, Matches.append h₁ h₂⟩

theorem matches_literal {w : Text} {before : Option Char} {s after : Text} {c : Option Text} :
    (literal w).Matches before s after c ↔ s = w ∧ c = none := by
  induction w generalizing before s c with
  | nil => exact Iff.rfl
  | cons x w ih =>
    constructor
    · rintro ⟨s₁, s₂, c₁, c₂, rfl, ⟨⟨y, hy, rfl⟩, rfl⟩, hw, rfl⟩
      obtain ⟨rfl, rfl⟩ := ih.1 hw
      obtain rfl := beq_iff_eq.1 hy
      exact ⟨rfl, rfl⟩
    · rintro ⟨rfl, rfl⟩
      have hx : (CharClass.exactly x).contains x := beq_iff_eq.2 rfl
      exact ⟨[x], w, none, none, rfl, ⟨⟨x, hx, rfl⟩, rfl⟩, ih.2 ⟨rfl, rfl⟩, rfl⟩

theorem hasLanguage_literal (w : Text) : (literal w).HasLanguage fun s => s = w := by
  intro before s after
  simp [matches_literal]

/-- A pattern with a language occurs where a member of the language stands. -/
theorem HasLanguage.occursIn_iff (h : p.HasLanguage L) :
    p.occursIn t ↔ ∃ pre s post, t = pre ++ (s ++ post) ∧ L s := by
  rw [Pattern.occursIn_iff]
  constructor
  · rintro ⟨pre, s, post, c, rfl, hm⟩
    exact ⟨pre, s, post, List.append_assoc .., (h _ _ _).1 ⟨c, hm⟩⟩
  · rintro ⟨pre, s, post, rfl, hs⟩
    obtain ⟨c, hm⟩ := (h pre.getLast? s post).2 hs
    exact ⟨pre, s, post, c, (List.append_assoc ..).symm, hm⟩

/-! ## Words -/

/-- Whatever may be left out in front of a pattern does not matter for where it occurs. -/
theorem occursIn_optional_append : (optional p ++ q).occursIn t = q.occursIn t := by
  rw [Bool.eq_iff_iff]
  constructor
  · exact occursIn_right_of_append
  · intro h
    have hw : q.Within (optional p ++ q) := by
      intro before s after c hm
      exact ⟨c, [], s, none, c, rfl, .inr ⟨rfl, rfl⟩, hm, Option.or_none.symm⟩
    exact hw.occursIn h

/-- A word between boundaries occurs where it stands and no word character touches it. -/
theorem occursIn_wholeWord_iff {w : Text} (hne : w ≠ []) (hw : ∀ x ∈ w, isWordChar x) :
    (boundary ++ (literal w ++ boundary)).occursIn t ↔
      ∃ pre post, t = pre ++ (w ++ post) ∧ pre.getLast?.any isWordChar = false ∧
        post.head?.any isWordChar = false := by
  have hhead : w.head?.any isWordChar = true := by
    rw [List.head?_eq_some_head hne]
    exact hw _ (List.head_mem hne)
  have hlast : w.getLast?.any isWordChar = true := by
    rw [List.getLast?_eq_some_getLast hne]
    exact hw _ (List.getLast_mem hne)
  have hstart (before : Option Char) (post : Text) :
      Cursor.atBoundary ⟨before, w ++ post⟩ ↔ before.any isWordChar = false := by
    rw [Cursor.atBoundary, List.head?_append, List.head?_eq_some_head hne, Option.some_or,
      ← List.head?_eq_some_head hne, hhead]
    simp
  have hstop (before : Option Char) (post : Text) :
      Cursor.atBoundary ⟨charBefore before w, post⟩ ↔ post.head?.any isWordChar = false := by
    have hany : (charBefore before w).any isWordChar = true := by
      rw [charBefore, List.getLast?_eq_some_getLast hne, Option.some_or,
        ← List.getLast?_eq_some_getLast hne, hlast]
    rw [Cursor.atBoundary, hany]
    simp
  rw [Pattern.occursIn_iff]
  constructor
  · rintro ⟨pre, _, post, _, rfl, _, _, _, _, rfl, ⟨hb, rfl, -⟩, ⟨s, _, _, _, rfl, hs, ⟨he, rfl, -⟩, -⟩,
      -⟩
    obtain ⟨rfl, -⟩ := matches_literal.1 hs
    rw [List.append_nil, hstart] at hb
    rw [charBefore_nil, hstop] at he
    exact ⟨pre, post, by simp, hb, he⟩
  · rintro ⟨pre, post, rfl, hpre, hpost⟩
    refine ⟨pre, w, post, none, by simp, [], w, none, none, rfl, ⟨?_, rfl, rfl⟩, ?_, rfl⟩
    · exact (hstart _ _).2 hpre
    · refine ⟨w, [], none, none, by simp, matches_literal.2 ⟨rfl, rfl⟩, ⟨?_, rfl, rfl⟩, rfl⟩
      exact (hstop _ _).2 hpost

/-- Of a run in front of a pattern the last character is enough. -/
theorem occursIn_some1_append {k : CharClass} : (some1 k ++ q).occursIn t = (one k ++ q).occursIn t := by
  rw [Bool.eq_iff_iff, Pattern.occursIn_iff, Pattern.occursIn_iff]
  constructor
  · rintro ⟨pre, _, post, _, rfl, s, s₂, _, c₂, rfl, hs, hq, -⟩
    obtain ⟨hne, hk, -⟩ := matches_some1.1 hs
    obtain ⟨u, x, rfl⟩ : ∃ u x, s = u ++ [x] := ⟨_, _, (List.dropLast_concat_getLast hne).symm⟩
    have hx : (one k).Matches (pre ++ u).getLast? [x] (s₂ ++ post) none :=
      ⟨⟨x, hk x (by simp), rfl⟩, rfl⟩
    have hq : q.Matches (charBefore (pre ++ u).getLast? [x]) s₂ post c₂ := by
      rwa [← charBefore_none, charBefore_append, charBefore_none, ← charBefore_append]
    exact ⟨pre ++ u, [x] ++ s₂, post, _, by simp, Matches.append hx hq⟩
  · rintro ⟨pre, _, post, _, rfl, s, s₂, _, c₂, rfl, ⟨⟨x, hx, rfl⟩, -⟩, hq, -⟩
    have hs : (some1 k).Matches pre.getLast? [x] (s₂ ++ post) none :=
      matches_some1.2 ⟨by simp, by simpa using hx, rfl⟩
    exact ⟨pre, [x] ++ s₂, post, _, rfl, Matches.append hs hq⟩

/-- A word that starts at a boundary may be cut down to its last character. -/
theorem occursIn_boundary_word_iff :
    (boundary ++ (some1 .word ++ q)).occursIn t ↔ (one .word ++ q).occursIn t := by
  rw [← occursIn_some1_append]
  constructor
  · exact occursIn_right_of_append
  · intro h
    rw [← occursIn_optional_append (p := empty)] at h
    exact occursIn_boundary_word h

end Bookbinder.Pattern
