import Bookbinder.Proofs.Pattern.Semantics
import Bookbinder.Proofs.Text.Cutting

/-!
# Where patterns occur

Rules to argue about `Pattern.occursIn` and `Pattern.Matches` form by form: what repetitions and
alternatives match, that sequences may be regrouped (`matches_append_assoc`, `occursIn_append_assoc`),
that a part of a sequence occurs where the sequence does, and that a pattern occurs wherever a narrower
one does (`Within`).

A pattern without a captured part captures nothing (`IsPlain`), so in a sequence with one captured part
the captured text is that part (`Matches.capture_between`). Where the captured part is a run at the end
of the pattern, it is the longest one (`exists_longest_of_find?`).
-/

namespace Bookbinder.Pattern

variable {p q r : Pattern} {before : Option Char} {s after t : Text} {c : Option Text}

/-! ## Matches of composed patterns -/

theorem Matches.append {s₁ s₂ : Text} {c₁ c₂ : Option Text} (hp : p.Matches before s₁ (s₂ ++ after) c₁)
    (hq : q.Matches (charBefore before s₁) s₂ after c₂) :
    (p ++ q).Matches before (s₁ ++ s₂) after (c₂.or c₁) := ⟨s₁, s₂, c₁, c₂, rfl, hp, hq, rfl⟩

theorem matches_append_assoc :
    ((p ++ q) ++ r).Matches before s after c ↔ (p ++ (q ++ r)).Matches before s after c := by
  constructor
  · rintro ⟨_, s₃, _, c₃, rfl, ⟨s₁, s₂, c₁, c₂, rfl, hp, hq, rfl⟩, hr, rfl⟩
    rw [← List.append_assoc] at hp
    rw [charBefore_append] at hr
    rw [List.append_assoc, ← Option.or_assoc]
    exact Matches.append hp (Matches.append hq hr)
  · rintro ⟨s₁, _, c₁, _, rfl, hp, ⟨s₂, s₃, c₂, c₃, rfl, hq, hr, rfl⟩, rfl⟩
    rw [List.append_assoc] at hp
    rw [← charBefore_append] at hr
    rw [← List.append_assoc, Option.or_assoc]
    exact Matches.append (Matches.append hp hq) hr

theorem matches_some1 {k : CharClass} : (some1 k).Matches before s after c ↔
    s ≠ [] ∧ (∀ x ∈ s, k.contains x) ∧ c = none := by
  constructor
  · rintro ⟨s₁, s₂, c₁, c₂, rfl, ⟨⟨y, hy, rfl⟩, rfl⟩, ⟨hs, rfl⟩, rfl⟩
    refine ⟨by simp, ?_, rfl⟩
    simpa [hy] using hs
  · rintro ⟨hne, hs, rfl⟩
    cases s with
    | nil => exact absurd rfl hne
    | cons y ys =>
      exact ⟨[y], ys, none, none, rfl, ⟨⟨y, hs y (by simp), rfl⟩, rfl⟩,
        ⟨fun x hx => hs x (by simp [hx]), rfl⟩, rfl⟩

theorem matches_anyOf {ps : List Pattern} : (anyOf ps).Matches before s after c ↔
    ∃ p ∈ ps, p.Matches before s after c := by
  induction ps with
  | nil => simp [anyOf, Matches]
  | cons p ps ih =>
    cases ps with
    | nil => simp [anyOf]
    | cons q ps =>
      change p.Matches before s after c ∨ (anyOf (q :: ps)).Matches before s after c ↔ _
      rw [ih]
      simp

/-! ## Occurrences -/

theorem occursIn_anyOf {ps : List Pattern} : (anyOf ps).occursIn t ↔ ∃ p ∈ ps, p.occursIn t := by
  simp only [occursIn_iff, matches_anyOf]
  constructor
  · rintro ⟨pre, s, post, c, ht, p, hp, hm⟩
    exact ⟨p, hp, pre, s, post, c, ht, hm⟩
  · rintro ⟨p, hp, pre, s, post, c, ht, hm⟩
    exact ⟨pre, s, post, c, ht, p, hp, hm⟩

theorem occursIn_append_assoc : ((p ++ q) ++ r).occursIn t = (p ++ (q ++ r)).occursIn t := by
  rw [Bool.eq_iff_iff]
  simp only [occursIn_iff, matches_append_assoc]

theorem occursIn_left_of_append (h : (p ++ q).occursIn t) : p.occursIn t := by
  obtain ⟨pre, s, post, c, rfl, s₁, s₂, c₁, c₂, rfl, hp, -, -⟩ := occursIn_iff.1 h
  exact occursIn_iff.2 ⟨pre, s₁, s₂ ++ post, c₁, by simp, hp⟩

theorem occursIn_right_of_append (h : (p ++ q).occursIn t) : q.occursIn t := by
  obtain ⟨pre, s, post, c, rfl, s₁, s₂, c₁, c₂, rfl, -, hq, -⟩ := occursIn_iff.1 h
  rw [← charBefore_none, ← charBefore_append, charBefore_none] at hq
  exact occursIn_iff.2 ⟨pre ++ s₁, s₂, post, c₂, by simp, hq⟩

/-! ## Narrower patterns -/

/-- Every stretch that `p` matches is matched by `q` too, whatever the two capture. -/
def Within (p q : Pattern) : Prop :=
  ∀ ⦃before : Option Char⦄ ⦃s after : Text⦄ ⦃c : Option Text⦄, p.Matches before s after c →
    ∃ c', q.Matches before s after c'

theorem Within.refl (p : Pattern) : p.Within p := fun _ _ _ c h => ⟨c, h⟩

theorem Within.append {p' q' : Pattern} (hp : p.Within p') (hq : q.Within q') :
    (p ++ q).Within (p' ++ q') := by
  rintro before s after c ⟨s₁, s₂, c₁, c₂, rfl, h₁, h₂, rfl⟩
  obtain ⟨c₁', h₁⟩ := hp h₁
  obtain ⟨c₂', h₂⟩ := hq h₂
  exact ⟨_, Matches.append h₁ h₂⟩

theorem within_capture (p : Pattern) : p.Within (capture p) := fun _ s _ c h => ⟨some s, ⟨c, h⟩, rfl⟩

theorem capture_within (p : Pattern) : (capture p).Within p := fun _ _ _ _ h => h.1

theorem many_within {k k' : CharClass} (h : ∀ x, k.contains x → k'.contains x) (e e' : Appetite) :
    (many k e).Within (many k' e') :=
  fun _ _ _ _ hm => ⟨none, fun x hx => h x (hm.1 x hx), rfl⟩

theorem Within.occursIn (h : p.Within q) (ht : p.occursIn t) : q.occursIn t := by
  obtain ⟨pre, s, post, c, rfl, hm⟩ := occursIn_iff.1 ht
  obtain ⟨c', hm⟩ := h hm
  exact occursIn_iff.2 ⟨pre, s, post, c', rfl, hm⟩

/-! ## Captured parts -/

/-- The pattern has no captured part. -/
def IsPlain : Pattern → Prop
  | seq p q | alt p q => p.IsPlain ∧ q.IsPlain
  | capture _ => False
  | _ => True

theorem IsPlain.eq_none (hp : p.IsPlain) (hm : p.Matches before s after c) : c = none := by
  induction p generalizing before s after c with
  | never => exact hm.elim
  | empty => exact hm.2
  | start | boundary => exact hm.2.2
  | one | many => exact hm.2
  | seq p q ihp ihq =>
    obtain ⟨s₁, s₂, c₁, c₂, rfl, h₁, h₂, rfl⟩ := hm
    rw [ihp hp.1 h₁, ihq hp.2 h₂]
    rfl
  | alt p q ihp ihq =>
    rcases hm with hm | hm
    · exact ihp hp.1 hm
    · exact ihq hp.2 hm
  | capture p => exact hp.elim

theorem isPlain_literal (w : Text) : (literal w).IsPlain := by
  induction w with
  | nil => trivial
  | cons x w ih => exact ⟨trivial, ih⟩

theorem isPlain_append : (p ++ q).IsPlain ↔ p.IsPlain ∧ q.IsPlain := Iff.rfl

/-- With one captured part in a sequence, a match captures exactly that part. -/
theorem Matches.capture_between (hp : p.IsPlain) (hr : r.IsPlain)
    (hm : (p ++ (capture q ++ r)).Matches before s after c) :
    ∃ s₁ n s₃ c', s = s₁ ++ (n ++ s₃) ∧ p.Matches before s₁ (n ++ s₃ ++ after) none ∧
      q.Matches (charBefore before s₁) n (s₃ ++ after) c' ∧
      r.Matches (charBefore (charBefore before s₁) n) s₃ after none ∧ c = some n := by
  obtain ⟨s₁, s₂, c₁, c₂, rfl, h₁, ⟨n, s₃, c₃, c₄, rfl, ⟨⟨c', h₂⟩, rfl⟩, h₃, rfl⟩, rfl⟩ := hm
  obtain rfl := hp.eq_none h₁
  obtain rfl := hr.eq_none h₃
  exact ⟨s₁, n, s₃, c', rfl, h₁, h₂, h₃, rfl⟩

/-- What is captured is part of the stretch that matches. -/
theorem Matches.infix_of_capture {n : Text} (hm : p.Matches before s after (some n)) : n <:+: s := by
  induction p generalizing before s after with
  | never => exact hm.elim
  | empty | one | many => cases hm.2
  | start | boundary => cases hm.2.2
  | seq p q ihp ihq =>
    obtain ⟨s₁, s₂, c₁, c₂, rfl, hp, hq, hc⟩ := hm
    rcases Option.or_eq_some_iff.1 hc.symm with rfl | ⟨-, rfl⟩
    · exact (ihq hq).trans (List.suffix_append s₁ s₂).isInfix
    · exact (ihp hp).trans (List.prefix_append s₁ s₂).isInfix
  | alt p q ihp ihq =>
    rcases hm with hm | hm
    · exact ihp hm
    · exact ihq hm
  | capture p =>
    obtain rfl : n = s := Option.some.inj hm.2
    exact List.infix_rfl

/-- What a search returns is part of the text. -/
theorem infix_of_find? {n : Text} (h : p.find? t = some n) : n <:+: t := by
  obtain ⟨pre, s, post, c, rfl, hm, rfl⟩ := exists_matches_of_find? h
  cases c with
  | none => exact List.nil_infix
  | some n => exact hm.infix_of_capture.trans (List.infix_append pre s post)

/-! ## Longest runs -/

section Longest

variable {α : Type} {k : CharClass} {f : Cursor → Option α}

/-- A greedy run before a continuation that never fails takes all it can. -/
theorem runGreedy_of_total (hf : ∀ a, (f a).isSome) :
    runGreedy k f before t =
      f ⟨charBefore before (t.takeWhile k.contains), t.dropWhile k.contains⟩ := by
  induction t generalizing before with
  | nil => rfl
  | cons y ys ih =>
    by_cases hy : k.contains y
    · rw [runGreedy_cons, if_pos hy, ih, List.takeWhile_cons_of_pos hy,
        List.dropWhile_cons_of_pos hy, charBefore_cons, Option.or_of_isSome (hf _)]
    · rw [runGreedy_cons, if_neg hy, Option.none_or, List.takeWhile_cons_of_neg hy,
        List.dropWhile_cons_of_neg hy, charBefore_nil]

theorem eq_takeWhile_of_run_capture {n : Text} {cap : Option Text}
    (h : (capture (some1 k)).run ⟨before, t⟩ cap (fun _ c => some (c.getD [])) = some n) :
    n = t.takeWhile k.contains ∧ n ≠ [] := by
  cases t with
  | nil => cases h
  | cons y ys =>
    change (if k.contains y then _ else none) = some n at h
    split at h
    · rename_i hy
      change runGreedy k (fun b => some (Cursor.textTo ⟨before, y :: ys⟩ b)) (some y) ys = some n at h
      have hys : y :: ys = (y :: ys.takeWhile k.contains) ++ ys.dropWhile k.contains := by simp
      rw [runGreedy_of_total (fun _ => rfl), Option.some.injEq, Cursor.textTo_eq hys] at h
      subst h
      exact ⟨(List.takeWhile_cons_of_pos hy).symm, by simp⟩
    · cases h

/-- A search for a run behind other parts returns the whole run. -/
theorem exists_longest_of_find? {n : Text} (h : (p ++ capture (some1 k)).find? t = some n) :
    ∃ pre s u c, t = pre ++ s ++ u ∧ p.Matches pre.getLast? s u c ∧ n = u.takeWhile k.contains ∧
      n ≠ [] := by
  obtain ⟨pre, v, rfl, hv⟩ := exists_place_of_find? h
  obtain ⟨s, u, c, hs, hm, hx⟩ := exists_matches_of_run p hv
  simp only at hs hm
  subst hs
  exact ⟨pre, s, u, c, (List.append_assoc ..).symm, hm, eq_takeWhile_of_run_capture hx⟩

end Longest

/-! ## Whole words -/

/-- The word characters at the end of a text, set off from what stands before them. -/
theorem exists_word_suffix (t : Text) :
    ∃ u w, t = u ++ w ∧ (∀ x ∈ w, isWordChar x) ∧ u.getLast?.any isWordChar = false := by
  refine ⟨dropEndWhile isWordChar t, (t.reverse.takeWhile isWordChar).reverse,
    ?_, ?_, ?_⟩
  · rw [dropEndWhile, ← List.reverse_append, List.takeWhile_append_dropWhile, List.reverse_reverse]
  · intro x hx
    exact List.all_eq_true.1 List.all_takeWhile x (List.mem_reverse.1 hx)
  · exact getLast?_dropEndWhile isWordChar t

/-- A word in the middle of a sequence can be completed to the left: where it stands, a word that
starts at a boundary ends. -/
theorem occursIn_boundary_word (h : (p ++ (some1 .word ++ q)).occursIn t) :
    (boundary ++ (some1 .word ++ q)).occursIn t := by
  obtain ⟨pre, _, post, c, rfl, e, _, _, _, rfl, -, ⟨n, r, _, c₂, rfl, hn, hq, rfl⟩, -⟩ :=
    occursIn_iff.1 h
  obtain ⟨hne, hw, -⟩ := matches_some1.1 hn
  obtain ⟨u, w, hu, hword, hlast⟩ := exists_word_suffix (pre ++ e)
  have hall : ∀ x ∈ w ++ n, isWordChar x := by
    intro x hx
    rcases List.mem_append.1 hx with hx | hx
    · exact hword x hx
    · exact hw x hx
  have hb : Cursor.atBoundary ⟨u.getLast?, (w ++ n ++ r) ++ post⟩ := by
    obtain ⟨y, ys, hy⟩ := List.exists_cons_of_ne_nil (List.append_ne_nil_of_right_ne_nil w hne)
    have hword : isWordChar y := hall y (by rw [hy]; simp)
    rw [Cursor.atBoundary, hlast, hy]
    simp [hword]
  have hq' : q.Matches (charBefore u.getLast? (w ++ n)) r post c₂ := by
    rw [← charBefore_none, ← charBefore_append, ← charBefore_append] at hq
    rwa [← charBefore_none, ← charBefore_append, ← List.append_assoc, ← hu, List.append_assoc]
  refine occursIn_iff.2 ⟨u, w ++ n ++ r, post, (c₂.or none).or none, ?_, ?_⟩
  · simp only [List.append_assoc] at hu ⊢
    rw [← List.append_assoc, hu, List.append_assoc]
  · refine ⟨[], w ++ n ++ r, none, c₂.or none, rfl, ⟨hb, rfl, rfl⟩, ?_, rfl⟩
    rw [charBefore_nil]
    exact Matches.append (matches_some1.2 ⟨by simp [hne], hall, rfl⟩) hq'

end Bookbinder.Pattern
