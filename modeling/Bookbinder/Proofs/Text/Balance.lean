import Bookbinder.Text.Basic
import Mathlib.Data.List.Infix

/-!
# Balanced parentheses

A text is balanced if no start of it closes more parentheses than it opens and the whole closes as many
as it opens. The partner of an opening parenthesis is the closing one with a balanced text between the
two: there is one in every balanced text (`Balanced.exists_partner`) and there is never a second one
(`Balanced.partner_unique`).
-/

namespace Bookbinder

variable {s t u before : Text}

/-- Every parenthesis of the text has a partner in it. -/
structure Balanced (t : Text) : Prop where
  closed_le : ∀ a, a <+: t → a.count ')' ≤ a.count '('
  closed_eq : t.count ')' = t.count '('

theorem balanced_iff : Balanced t ↔
    (∀ a ∈ t.inits, a.count ')' ≤ a.count '(') ∧ t.count ')' = t.count '(' := by
  simp only [List.mem_inits]
  exact ⟨fun h => ⟨h.closed_le, h.closed_eq⟩, fun h => ⟨h.1, h.2⟩⟩

instance (t : Text) : Decidable (Balanced t) := decidable_of_iff _ balanced_iff.symm

theorem count_close_append_close (s : Text) : (s ++ [')']).count ')' = s.count ')' + 1 := by
  rw [List.count_append, List.count_singleton_self]

theorem count_open_append_close (s : Text) : (s ++ [')']).count '(' = s.count '(' := by
  rw [List.count_append, List.count_eq_zero.2 (by decide : '(' ∉ [')']), Nat.add_zero]

/-- A text in which some start closes too much has a first parenthesis that is too much, and what stands
before it is balanced. -/
theorem exists_first_excess (h : ∃ a, a <+: u ∧ a.count '(' < a.count ')') :
    ∃ params after, u = params ++ ')' :: after ∧ Balanced params := by
  -- Along the text character by character: the first excess is in the part read so far, or else no start
  -- of that part closes too much, and then it is the next character.
  induction u using List.reverseRecOn with
  | nil =>
    obtain ⟨a, ha, hlt⟩ := h
    rw [List.prefix_nil.1 ha] at hlt
    simp at hlt
  | append_singleton u x ih =>
    by_cases hu : ∃ a, a <+: u ∧ a.count '(' < a.count ')'
    · obtain ⟨params, after, rfl, hp⟩ := ih hu
      exact ⟨params, after ++ [x], by simp, hp⟩
    · have hle : ∀ a, a <+: u → a.count ')' ≤ a.count '(' := by
        intro a ha
        exact Nat.le_of_not_lt fun hlt => hu ⟨a, ha, hlt⟩
      obtain ⟨a, ha, hlt⟩ := h
      rcases List.prefix_concat_iff.1 ha with rfl | ha
      · have hself := hle u List.prefix_rfl
        obtain rfl : x = ')' := by
          by_contra hx
          have hzero : [x].count ')' = 0 := List.count_eq_zero.2 (by simpa using Ne.symm hx)
          rw [List.count_append, List.count_append] at hlt
          omega
        rw [count_open_append_close, count_close_append_close] at hlt
        exact ⟨u, [], rfl, hle, by omega⟩
      · exact absurd ⟨a, ha, hlt⟩ hu

/-- The first opening parenthesis of a balanced text has a partner. -/
theorem Balanced.exists_partner (h : Balanced (before ++ '(' :: u)) (hb : '(' ∉ before) :
    ∃ params after, u = params ++ ')' :: after ∧ Balanced params := by
  apply exists_first_excess
  refine ⟨u, List.prefix_rfl, ?_⟩
  have hle := h.closed_le before ⟨_, rfl⟩
  have heq := h.closed_eq
  have hzero : before.count '(' = 0 := List.count_eq_zero.2 hb
  have hclose : ('(' :: u).count ')' = u.count ')' := List.count_cons_of_ne (by decide)
  rw [List.count_append, List.count_append, hclose, List.count_cons_self] at heq
  omega

theorem not_balanced_of_excess (hs : Balanced s) : ¬ Balanced (s ++ ')' :: t) := by
  intro h
  have hle := h.closed_le (s ++ [')']) ⟨t, by simp⟩
  have heq := hs.closed_eq
  rw [count_open_append_close, count_close_append_close] at hle
  omega

/-- Two partners of one parenthesis are the same. -/
theorem Balanced.partner_unique {a b : Text} (hs : Balanced s) (ht : Balanced t)
    (h : s ++ ')' :: a = t ++ ')' :: b) : s = t := by
  rcases List.append_eq_append_iff.1 h with ⟨m, rfl, hm⟩ | ⟨m, rfl, hm⟩
  · cases m with
    | nil => simp
    | cons y m =>
      obtain ⟨rfl, -⟩ := List.cons.inj hm
      exact absurd ht (not_balanced_of_excess hs)
  · cases m with
    | nil => simp
    | cons y m =>
      obtain ⟨rfl, -⟩ := List.cons.inj hm
      exact absurd hs (not_balanced_of_excess ht)

end Bookbinder
