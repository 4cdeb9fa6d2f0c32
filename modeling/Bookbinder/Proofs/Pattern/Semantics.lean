import Bookbinder.Pattern

/-!
# What a pattern matches

`p.Matches before s after c` says, without any order of attempts, that `p` matches the stretch `s` of a
text in which the character `before` comes before it and the text `after` behind it, and that `c` is
captured on the way. The search of `Pattern.run` agrees with it in both directions:

* `exists_matches_of_run`: whatever the search accepts, it accepts at the end of such a stretch;
* `run_isSome_of_matches`: if the continuation accepts at the end of some such stretch, the search
  finds an answer.

For a whole text this becomes `exists_matches_of_find?` and `occursIn_iff`.
-/

namespace Bookbinder

/-- The character before the text that follows `s`, where `before` stands before `s`. -/
def charBefore (before : Option Char) (s : Text) : Option Char := s.getLast?.or before

theorem charBefore_nil (before : Option Char) : charBefore before [] = before := rfl

theorem charBefore_cons (before : Option Char) (x : Char) (s : Text) :
    charBefore before (x :: s) = charBefore (some x) s := by
  cases s with
  | nil => rfl
  | cons y s => simp [charBefore, List.getLast?_cons]

theorem charBefore_append (before : Option Char) (s t : Text) :
    charBefore before (s ++ t) = charBefore (charBefore before s) t := by
  rw [charBefore, charBefore, charBefore, List.getLast?_append, Option.or_assoc]

theorem charBefore_none (s : Text) : charBefore none s = s.getLast? := Option.or_none

theorem Cursor.textTo_eq {a b : Cursor} {s : Text} (h : a.rest = s ++ b.rest) : a.textTo b = s := by
  simp [textTo, h]

namespace Pattern

/-- The pattern matches the stretch `s` between `before` and `after` and captures `c`; of several
captured parts the last one counts. -/
def Matches : Pattern → Option Char → Text → Text → Option Text → Prop
  | never, _, _, _, _ => False
  | empty, _, s, _, c => s = [] ∧ c = none
  | start, before, s, _, c => before = none ∧ s = [] ∧ c = none
  | boundary, before, s, after, c => Cursor.atBoundary ⟨before, after⟩ ∧ s = [] ∧ c = none
  | one k, _, s, _, c => (∃ x, k.contains x ∧ s = [x]) ∧ c = none
  | many k _, _, s, _, c => (∀ x ∈ s, k.contains x) ∧ c = none
  | seq p q, before, s, after, c => ∃ s₁ s₂ c₁ c₂, s = s₁ ++ s₂ ∧ p.Matches before s₁ (s₂ ++ after) c₁ ∧
      q.Matches (charBefore before s₁) s₂ after c₂ ∧ c = c₂.or c₁
  | alt p q, before, s, after, c => p.Matches before s after c ∨ q.Matches before s after c
  | capture p, before, s, after, c => (∃ c', p.Matches before s after c') ∧ c = some s

/-! ## Runs of a class -/

section Runs

variable {α : Type} {k : CharClass} {f : Cursor → Option α} {before : Option Char} {t : Text}

theorem runGreedy_cons (y : Char) (ys : Text) : runGreedy k f before (y :: ys) =
    (if k.contains y then runGreedy k f (some y) ys else none).or (f ⟨before, y :: ys⟩) := by
  rw [runGreedy]
  split
  · rw [Option.orElse_eq_or]
  · rw [Option.none_or]

theorem runReluctant_cons (y : Char) (ys : Text) : runReluctant k f before (y :: ys) =
    (f ⟨before, y :: ys⟩).or (if k.contains y then runReluctant k f (some y) ys else none) := by
  rw [runReluctant, Option.orElse_eq_or]

theorem exists_run_of_runGreedy {x : α} (h : runGreedy k f before t = some x) :
    ∃ s after, t = s ++ after ∧ (∀ y ∈ s, k.contains y) ∧ f ⟨charBefore before s, after⟩ = some x := by
  induction t generalizing before with
  | nil => exact ⟨[], [], rfl, by simp, h⟩
  | cons y ys ih =>
    rw [runGreedy_cons, Option.or_eq_some_iff] at h
    rcases h with h | ⟨-, h⟩
    · split at h
      · rename_i hy
        obtain ⟨s, after, rfl, hs, hx⟩ := ih h
        exact ⟨y :: s, after, rfl, by simpa [hy] using hs, by rw [charBefore_cons, hx]⟩
      · cases h
    · exact ⟨[], y :: ys, rfl, by simp, h⟩

theorem exists_run_of_runReluctant {x : α} (h : runReluctant k f before t = some x) :
    ∃ s after, t = s ++ after ∧ (∀ y ∈ s, k.contains y) ∧ f ⟨charBefore before s, after⟩ = some x := by
  induction t generalizing before with
  | nil => exact ⟨[], [], rfl, by simp, h⟩
  | cons y ys ih =>
    rw [runReluctant_cons, Option.or_eq_some_iff] at h
    rcases h with h | ⟨-, h⟩
    · exact ⟨[], y :: ys, rfl, by simp, h⟩
    · split at h
      · rename_i hy
        obtain ⟨s, after, rfl, hs, hx⟩ := ih h
        exact ⟨y :: s, after, rfl, by simpa [hy] using hs, by rw [charBefore_cons, hx]⟩
      · cases h

theorem runGreedy_isSome {s after : Text} (hs : ∀ y ∈ s, k.contains y)
    (hf : (f ⟨charBefore before s, after⟩).isSome) : (runGreedy k f before (s ++ after)).isSome := by
  induction s generalizing before with
  | nil =>
    cases after with
    | nil => exact hf
    | cons y ys =>
      rw [List.nil_append, runGreedy_cons, Option.isSome_or, Bool.or_eq_true]
      exact Or.inr hf
  | cons y s ih =>
    rw [charBefore_cons] at hf
    rw [List.cons_append, runGreedy_cons, if_pos (hs y (by simp)), Option.isSome_or, Bool.or_eq_true]
    exact Or.inl (ih (fun z hz => hs z (by simp [hz])) hf)

theorem runReluctant_isSome {s after : Text} (hs : ∀ y ∈ s, k.contains y)
    (hf : (f ⟨charBefore before s, after⟩).isSome) :
    (runReluctant k f before (s ++ after)).isSome := by
  induction s generalizing before with
  | nil =>
    cases after with
    | nil => exact hf
    | cons y ys =>
      rw [List.nil_append, runReluctant_cons, Option.isSome_or, Bool.or_eq_true]
      exact Or.inl hf
  | cons y s ih =>
    rw [charBefore_cons] at hf
    rw [List.cons_append, runReluctant_cons, if_pos (hs y (by simp)), Option.isSome_or,
      Bool.or_eq_true]
    exact Or.inr (ih (fun z hz => hs z (by simp [hz])) hf)

end Runs

/-! ## The search and the relation -/

section Search

variable {α : Type}

/-- An answer of the search is one of the continuation, at the end of a stretch that matches. -/
theorem exists_matches_of_run (p : Pattern) {a : Cursor} {cap : Option Text} {f : Continuation α}
    {x : α} (h : p.run a cap f = some x) :
    ∃ s after c, a.rest = s ++ after ∧ p.Matches a.before s after c ∧
      f ⟨charBefore a.before s, after⟩ (c.or cap) = some x := by
  induction p generalizing a cap f with
  | never => cases h
  | empty => exact ⟨[], a.rest, none, rfl, ⟨rfl, rfl⟩, h⟩
  | start =>
    rw [run] at h
    split at h
    · rename_i ha
      exact ⟨[], a.rest, none, rfl, ⟨Option.isNone_iff_eq_none.1 ha, rfl, rfl⟩, h⟩
    · cases h
  | boundary =>
    rw [run] at h
    split at h
    · rename_i ha
      exact ⟨[], a.rest, none, rfl, ⟨ha, rfl, rfl⟩, h⟩
    · cases h
  | one k =>
    obtain ⟨before, t⟩ := a
    cases t with
    | nil => cases h
    | cons y ys =>
      rw [run] at h
      split at h
      · rename_i hy
        exact ⟨[y], ys, none, rfl, ⟨⟨y, hy, rfl⟩, rfl⟩, h⟩
      · cases h
  | many k appetite =>
    cases appetite with
    | greedy =>
      obtain ⟨s, after, hs, hk, hx⟩ := exists_run_of_runGreedy h
      exact ⟨s, after, none, hs, ⟨hk, rfl⟩, hx⟩
    | reluctant =>
      obtain ⟨s, after, hs, hk, hx⟩ := exists_run_of_runReluctant h
      exact ⟨s, after, none, hs, ⟨hk, rfl⟩, hx⟩
  | seq p q ihp ihq =>
    obtain ⟨s₁, t₁, c₁, h₁, hp, hf⟩ := ihp h
    obtain ⟨s₂, after, c₂, h₂, hq, hx⟩ := ihq hf
    simp only at h₂ hq hx
    subst h₂
    refine ⟨s₁ ++ s₂, after, c₂.or c₁, by rw [h₁, List.append_assoc], ?_, ?_⟩
    · exact ⟨s₁, s₂, c₁, c₂, rfl, hp, hq, rfl⟩
    · rw [charBefore_append, Option.or_assoc]
      exact hx
  | alt p q ihp ihq =>
    rw [run, Option.orElse_eq_or, Option.or_eq_some_iff] at h
    rcases h with h | ⟨-, h⟩
    · obtain ⟨s, after, c, hs, hm, hx⟩ := ihp h
      exact ⟨s, after, c, hs, Or.inl hm, hx⟩
    · obtain ⟨s, after, c, hs, hm, hx⟩ := ihq h
      exact ⟨s, after, c, hs, Or.inr hm, hx⟩
  | capture p ih =>
    obtain ⟨s, after, c, hs, hm, hx⟩ := ih h
    rw [Cursor.textTo_eq hs] at hx
    exact ⟨s, after, some s, hs, ⟨⟨c, hm⟩, rfl⟩, hx⟩

/-- Where the continuation accepts the end of a stretch that matches, the search has an answer. -/
theorem run_isSome_of_matches (p : Pattern) {before : Option Char} {s after : Text}
    {c cap : Option Text} {f : Continuation α} (hm : p.Matches before s after c)
    (hf : (f ⟨charBefore before s, after⟩ (c.or cap)).isSome) :
    (p.run ⟨before, s ++ after⟩ cap f).isSome := by
  induction p generalizing before s after c cap f with
  | never => exact hm.elim
  | empty =>
    obtain ⟨rfl, rfl⟩ := hm
    exact hf
  | start =>
    obtain ⟨rfl, rfl, rfl⟩ := hm
    exact hf
  | boundary =>
    obtain ⟨ha, rfl, rfl⟩ := hm
    rw [run, List.nil_append, if_pos ha]
    exact hf
  | one k =>
    obtain ⟨⟨y, hy, rfl⟩, rfl⟩ := hm
    rw [List.cons_append, List.nil_append, run, if_pos hy]
    exact hf
  | many k appetite =>
    obtain ⟨hk, rfl⟩ := hm
    cases appetite with
    | greedy => exact runGreedy_isSome hk hf
    | reluctant => exact runReluctant_isSome hk hf
  | seq p q ihp ihq =>
    obtain ⟨s₁, s₂, c₁, c₂, rfl, hp, hq, rfl⟩ := hm
    rw [charBefore_append, Option.or_assoc] at hf
    rw [run, List.append_assoc]
    exact ihp hp (ihq hq hf)
  | alt p q ihp ihq =>
    rw [run, Option.orElse_eq_or, Option.isSome_or, Bool.or_eq_true]
    rcases hm with hm | hm
    · exact Or.inl (ihp hm hf)
    · exact Or.inr (ihq hm hf)
  | capture p ih =>
    obtain ⟨⟨c', hm⟩, rfl⟩ := hm
    rw [run]
    refine ih hm ?_
    rw [Cursor.textTo_eq rfl]
    exact hf

end Search

/-! ## Whole texts -/

theorem exists_place_of_findFrom? {p : Pattern} {before : Option Char} {t n : Text}
    (h : p.findFrom? before t = some n) :
    ∃ pre u, t = pre ++ u ∧ p.matchAt? ⟨charBefore before pre, u⟩ = some n := by
  induction t generalizing before with
  | nil => exact ⟨[], [], rfl, h⟩
  | cons y ys ih =>
    rw [findFrom?, Option.orElse_eq_or, Option.or_eq_some_iff] at h
    rcases h with h | ⟨-, h⟩
    · exact ⟨[], y :: ys, rfl, h⟩
    · obtain ⟨pre, u, rfl, hu⟩ := ih h
      exact ⟨y :: pre, u, rfl, by rwa [charBefore_cons]⟩

/-- What a search returns is the answer at some place of the text. -/
theorem exists_place_of_find? {p : Pattern} {t n : Text} (h : p.find? t = some n) :
    ∃ pre u, t = pre ++ u ∧ p.matchAt? ⟨pre.getLast?, u⟩ = some n := by
  obtain ⟨pre, u, ht, hu⟩ := exists_place_of_findFrom? h
  rw [charBefore_none] at hu
  exact ⟨pre, u, ht, hu⟩

/-- What a search returns is captured by a match somewhere in the text. -/
theorem exists_matches_of_find? {p : Pattern} {t n : Text} (h : p.find? t = some n) :
    ∃ pre s post c, t = pre ++ s ++ post ∧ p.Matches pre.getLast? s post c ∧ n = c.getD [] := by
  obtain ⟨pre, u, rfl, hu⟩ := exists_place_of_find? h
  obtain ⟨s, post, c, hs, hm, hx⟩ := exists_matches_of_run p hu
  simp only at hs hm
  subst hs
  rw [Option.or_none, Option.some.injEq] at hx
  exact ⟨pre, s, post, c, (List.append_assoc ..).symm, hm, hx.symm⟩

theorem findFrom?_isSome_of_matches {p : Pattern} {before : Option Char} {pre s post : Text}
    {c : Option Text} (hm : p.Matches (charBefore before pre) s post c) :
    (p.findFrom? before (pre ++ s ++ post)).isSome := by
  induction pre generalizing before with
  | nil =>
    have hr : (p.matchAt? ⟨before, s ++ post⟩).isSome := run_isSome_of_matches p hm rfl
    rw [List.nil_append]
    cases hs : s ++ post with
    | nil => rwa [hs] at hr
    | cons y ys =>
      rw [hs] at hr
      rw [findFrom?, Option.orElse_eq_or, Option.isSome_or, Bool.or_eq_true]
      exact Or.inl hr
  | cons y pre ih =>
    rw [charBefore_cons] at hm
    rw [List.cons_append, List.cons_append, findFrom?, Option.orElse_eq_or, Option.isSome_or,
      Bool.or_eq_true]
    exact Or.inr (ih hm)

/-- A search succeeds exactly on the texts with a stretch that matches. -/
theorem occursIn_iff {p : Pattern} {t : Text} :
    p.occursIn t ↔ ∃ pre s post c, t = pre ++ s ++ post ∧ p.Matches pre.getLast? s post c := by
  constructor
  · intro h
    obtain ⟨n, hn⟩ := Option.isSome_iff_exists.1 h
    obtain ⟨pre, s, post, c, ht, hm, -⟩ := exists_matches_of_find? hn
    exact ⟨pre, s, post, c, ht, hm⟩
  · rintro ⟨pre, s, post, c, rfl, hm⟩
    rw [← charBefore_none] at hm
    exact findFrom?_isSome_of_matches hm

end Pattern

end Bookbinder
