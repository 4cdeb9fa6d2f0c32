import Bookbinder.Proofs.Pattern.Language

/-!
# The order of a search

`Pattern.Matches` leaves open which of several matches a search returns. This module says which: the
leftmost place counts (`find?_eq_some_iff_leftmost`), of several alternatives the first
(`matchAt?_anyOf_cons`), and of the ends of a reluctant part the nearest (`matchAt?_reluctant_iff`). All
three come down to one fact: a reluctant run stops at the first place that the continuation accepts
(`runReluctant_eq_some_iff`), and a search over a text is such a run (`find?_eq_some_iff`).

A greedy run before a continuation that refuses every further member of its class takes the whole run
(`runGreedy_of_refuses`), so a pattern whose parts cannot be confused is run part by part.
-/

namespace Bookbinder.Pattern

variable {p q r : Pattern} {before : Option Char} {s t after w n : Text} {cap : Option Text}

/-! ## The first place -/

section FirstPlace

variable {α : Type} {k : CharClass} {f : Cursor → Option α}

/-- No place in `s` is accepted, where `after` follows `s`; the place behind `s` is left open. -/
def FailsWithin (f : Cursor → Option α) (before : Option Char) (s after : Text) : Prop :=
  ∀ a b, s = a ++ b → b ≠ [] → f ⟨charBefore before a, b ++ after⟩ = none

theorem failsWithin_nil : FailsWithin f before [] after := by
  intro a b hs hb
  exact absurd (List.append_eq_nil_iff.1 hs.symm).2 hb

theorem failsWithin_cons {y : Char} : FailsWithin f before (y :: s) after ↔
    f ⟨before, y :: (s ++ after)⟩ = none ∧ FailsWithin f (some y) s after := by
  constructor
  · intro h
    refine ⟨h [] (y :: s) rfl (by simp), fun a b hs hb => ?_⟩
    rw [← charBefore_cons before]
    exact h (y :: a) b (by rw [hs, List.cons_append]) hb
  · rintro ⟨hy, h⟩ a b hs hb
    cases a with
    | nil =>
      obtain rfl : y :: s = b := hs
      exact hy
    | cons z a =>
      obtain ⟨rfl, rfl⟩ := List.cons.inj hs
      rw [charBefore_cons]
      exact h a b rfl hb

theorem failsWithin_append {u : Text} : FailsWithin f before (s ++ u) after ↔
    FailsWithin f before s (u ++ after) ∧ FailsWithin f (charBefore before s) u after := by
  induction s generalizing before with
  | nil => simp [failsWithin_nil, charBefore_nil]
  | cons y s ih =>
    rw [List.cons_append, failsWithin_cons, failsWithin_cons, ih, charBefore_cons, List.append_assoc,
      and_assoc]

/-- A reluctant run stops at the first place that the continuation accepts. -/
theorem runReluctant_eq_some_iff {x : α} : runReluctant k f before t = some x ↔
    ∃ s after, t = s ++ after ∧ (∀ y ∈ s, k.contains y) ∧ f ⟨charBefore before s, after⟩ = some x ∧
      FailsWithin f before s after := by
  induction t generalizing before with
  | nil =>
    constructor
    · intro h
      exact ⟨[], [], rfl, by simp, h, failsWithin_nil⟩
    · rintro ⟨s, after, ht, -, hx, -⟩
      obtain ⟨rfl, rfl⟩ := List.append_eq_nil_iff.1 ht.symm
      exact hx
  | cons y ys ih =>
    rw [runReluctant_cons, Option.or_eq_some_iff]
    constructor
    · rintro (h | ⟨hnone, h⟩)
      · exact ⟨[], y :: ys, rfl, by simp, h, failsWithin_nil⟩
      · split at h
        · rename_i hy
          obtain ⟨s, after, rfl, hs, hx, hfails⟩ := ih.1 h
          refine ⟨y :: s, after, rfl, by simpa [hy] using hs, by rw [charBefore_cons, hx], ?_⟩
          exact failsWithin_cons.2 ⟨hnone, hfails⟩
        · cases h
    · rintro ⟨s, after, ht, hs, hx, hfails⟩
      cases s with
      | nil =>
        obtain rfl : y :: ys = after := ht
        exact .inl hx
      | cons z s =>
        obtain ⟨rfl, rfl⟩ := List.cons.inj ht
        obtain ⟨hnone, hfails⟩ := failsWithin_cons.1 hfails
        rw [charBefore_cons] at hx
        rw [if_pos (hs y (by simp))]
        exact .inr ⟨hnone, ih.2 ⟨s, after, rfl, fun x hx => hs x (by simp [hx]), hx, hfails⟩⟩

end FirstPlace

/-- A search is a reluctant run over any characters to a place where the pattern matches. -/
theorem findFrom?_eq_runReluctant : p.findFrom? before t = runReluctant .any p.matchAt? before t := by
  induction t generalizing before with
  | nil => rfl
  | cons y ys ih =>
    rw [findFrom?, runReluctant, ih]
    rfl

/-- A search returns the answer at the leftmost place that has one. -/
theorem find?_eq_some_iff : p.find? t = some n ↔
    ∃ pre u, t = pre ++ u ∧ p.matchAt? ⟨pre.getLast?, u⟩ = some n ∧
      FailsWithin p.matchAt? none pre u := by
  rw [find?, findFrom?_eq_runReluctant, runReluctant_eq_some_iff]
  constructor
  · rintro ⟨pre, u, ht, -, hn, hfails⟩
    rw [charBefore_none] at hn
    exact ⟨pre, u, ht, hn, hfails⟩
  · rintro ⟨pre, u, ht, hn, hfails⟩
    rw [← charBefore_none] at hn
    exact ⟨pre, u, ht, fun _ _ => rfl, hn, hfails⟩

/-- The leftmost place is the one before which the pattern matches nowhere. -/
theorem find?_eq_some_iff_leftmost : p.find? t = some n ↔
    ∃ pre u, t = pre ++ u ∧ p.matchAt? ⟨pre.getLast?, u⟩ = some n ∧
      ∀ pre' u', t = pre' ++ u' → (p.matchAt? ⟨pre'.getLast?, u'⟩).isSome → pre.length ≤ pre'.length := by
  rw [find?_eq_some_iff]
  constructor
  · rintro ⟨pre, u, ht, hn, hfails⟩
    refine ⟨pre, u, ht, hn, fun pre' u' ht' hsome => Nat.le_of_not_lt fun hlt => ?_⟩
    rw [ht] at ht'
    rcases List.append_eq_append_iff.1 ht' with ⟨m, rfl, -⟩ | ⟨m, rfl, rfl⟩
    · rw [List.length_append] at hlt
      omega
    · have hm : m ≠ [] := by
        rintro rfl
        simp at hlt
      have hnone := hfails pre' m rfl hm
      rw [charBefore_none] at hnone
      rw [hnone] at hsome
      cases hsome
  · rintro ⟨pre, u, rfl, hn, hleft⟩
    refine ⟨pre, u, rfl, hn, fun a b hab hb => ?_⟩
    rw [← Option.not_isSome_iff_eq_none, charBefore_none]
    intro hsome
    have hle := hleft a (b ++ u) (by rw [hab, List.append_assoc]) hsome
    rw [hab, List.length_append] at hle
    have hpos := List.length_pos_iff.2 hb
    omega

/-! ## The answer at a place -/

theorem matchAt?_isSome_iff : (p.matchAt? ⟨before, t⟩).isSome ↔
    ∃ s after c, t = s ++ after ∧ p.Matches before s after c := by
  constructor
  · intro h
    obtain ⟨n, hn⟩ := Option.isSome_iff_exists.1 h
    obtain ⟨s, after, c, ht, hm, -⟩ := exists_matches_of_run p hn
    exact ⟨s, after, c, ht, hm⟩
  · rintro ⟨s, after, c, rfl, hm⟩
    exact run_isSome_of_matches p hm rfl

theorem HasLanguage.matchAt?_isSome_iff {L : Text → Prop} (h : p.HasLanguage L) :
    (p.matchAt? ⟨before, t⟩).isSome ↔ ∃ s after, t = s ++ after ∧ L s := by
  rw [Pattern.matchAt?_isSome_iff]
  constructor
  · rintro ⟨s, after, c, ht, hm⟩
    exact ⟨s, after, ht, (h _ _ _).1 ⟨c, hm⟩⟩
  · rintro ⟨s, after, ht, hs⟩
    obtain ⟨c, hm⟩ := (h before s after).2 hs
    exact ⟨s, after, c, ht, hm⟩

theorem HasLanguage.capture {L : Text → Prop} (h : p.HasLanguage L) : p.capture.HasLanguage L := by
  intro b s a
  rw [← h b s a]
  exact ⟨fun ⟨_, hm⟩ => capture_within p hm, fun ⟨_, hm⟩ => within_capture p hm⟩

/-- Of several alternatives the first with an answer counts. -/
theorem matchAt?_anyOf_cons {ps : List Pattern} {a : Cursor} :
    (anyOf (p :: ps)).matchAt? a = (p.matchAt? a).or ((anyOf ps).matchAt? a) := by
  cases ps with
  | nil => exact Option.or_none.symm
  | cons q ps => exact Option.orElse_eq_or

theorem matchAt?_anyOf_eq_none {ps : List Pattern} {a : Cursor} (h : ∀ p ∈ ps, p.matchAt? a = none) :
    (anyOf ps).matchAt? a = none := by
  induction ps with
  | nil => rfl
  | cons p ps ih =>
    rw [matchAt?_anyOf_cons, h p (by simp), Option.none_or]
    exact ih fun q hq => h q (by simp [hq])

/-- Behind a captured part, a pattern that captures nothing only decides whether there is an answer. -/
theorem IsPlain.run_eq_map (hq : q.IsPlain) (a : Cursor) (cap : Option Text) :
    q.run a cap (fun _ c => some (c.getD [])) = (q.matchAt? a).map fun _ => cap.getD [] := by
  obtain ⟨before, t⟩ := a
  have hsame {c : Option Text} (hc : (q.run ⟨before, t⟩ c fun _ c => some (c.getD [])).isSome) :
      ∃ s after, t = s ++ after ∧ q.Matches before s after none ∧
        (q.run ⟨before, t⟩ c fun _ c => some (c.getD [])) = some (c.getD []) := by
    obtain ⟨n, hn⟩ := Option.isSome_iff_exists.1 hc
    obtain ⟨s, after, c', ht, hm, hx⟩ := exists_matches_of_run q hn
    obtain rfl := hq.eq_none hm
    rw [Option.none_or] at hx
    exact ⟨s, after, ht, hm, by rw [hn, ← hx]⟩
  cases hr : q.matchAt? ⟨before, t⟩ with
  | none =>
    rw [Option.map_none, ← Option.not_isSome_iff_eq_none]
    intro hc
    obtain ⟨s, after, ht, hm, -⟩ := hsame hc
    have hsome := Pattern.matchAt?_isSome_iff.2 ⟨s, after, none, ht, hm⟩
    rw [hr] at hsome
    cases hsome
  | some n =>
    obtain ⟨s, after, rfl, hm, -⟩ := hsame (c := none) (by rw [← matchAt?, hr]; rfl)
    have hc : (q.run ⟨before, s ++ after⟩ cap fun _ c => some (c.getD [])).isSome :=
      run_isSome_of_matches q hm rfl
    obtain ⟨-, -, -, -, hx⟩ := hsame hc
    exact hx

/-! ## Running part by part -/

section Steps

variable {α : Type} {k : CharClass} {f : Continuation α}

theorem run_append {a : Cursor} :
    (p ++ q).run a cap f = p.run a cap fun b c => q.run b c f := rfl

theorem run_optional {a : Cursor} : (optional p).run a cap f = (p.run a cap f).or (f a cap) :=
  Option.orElse_eq_or

theorem run_literal : (literal w).run ⟨before, w ++ t⟩ cap f = f ⟨charBefore before w, t⟩ cap := by
  induction w generalizing before with
  | nil => rfl
  | cons x w ih =>
    rw [charBefore_cons, ← ih]
    exact if_pos (beq_self_eq_true x)

theorem run_literal_eq_none (h : ¬ w <+: t) : (literal w).run ⟨before, t⟩ cap f = none := by
  rw [← Option.not_isSome_iff_eq_none]
  intro hsome
  obtain ⟨x, hx⟩ := Option.isSome_iff_exists.1 hsome
  obtain ⟨s, after, c, ht, hm, -⟩ := exists_matches_of_run _ hx
  obtain ⟨rfl, -⟩ := matches_literal.1 hm
  exact h ⟨after, ht.symm⟩

/-- The continuation accepts no place at which a member of the class comes next. -/
def Refuses (k : CharClass) (f : Continuation α) : Prop :=
  ∀ before x xs cap, k.contains x → f ⟨before, x :: xs⟩ cap = none

/-- A literal that starts with a character outside of the class refuses the class. -/
theorem refuses_literal (hw : w.head?.any fun x => !k.contains x) :
    Refuses k fun b c => (literal w).run b c f := by
  intro before x xs cap hx
  cases w with
  | nil => cases hw
  | cons y w =>
    apply run_literal_eq_none
    intro hp
    obtain ⟨rfl, -⟩ := List.cons_prefix_cons.1 hp
    rw [List.head?_cons, Option.any_some, hx] at hw
    cases hw

theorem runGreedy_of_refuses (hf : Refuses k f) (hs : ∀ y ∈ s, k.contains y)
    (ht : t.head?.any k.contains = false) :
    runGreedy k (fun b => f b cap) before (s ++ t) = f ⟨charBefore before s, t⟩ cap := by
  induction s generalizing before with
  | nil =>
    cases t with
    | nil => rfl
    | cons y t =>
      have hy : ¬ k.contains y := by simpa using ht
      rw [List.nil_append, runGreedy_cons, if_neg hy, Option.none_or, charBefore_nil]
  | cons y s ih =>
    have hy : k.contains y := hs y (by simp)
    rw [List.cons_append, runGreedy_cons, if_pos hy, ih fun z hz => hs z (by simp [hz]),
      hf _ _ _ _ hy, Option.or_none, charBefore_cons]

/-- A run of a class behind which the continuation wants something else is taken whole. -/
theorem run_some1_of_refuses (hf : Refuses k f) (hne : s ≠ []) (hs : ∀ y ∈ s, k.contains y)
    (ht : t.head?.any k.contains = false) :
    (some1 k).run ⟨before, s ++ t⟩ cap f = f ⟨charBefore before s, t⟩ cap := by
  obtain ⟨y, s, rfl⟩ := List.exists_cons_of_ne_nil hne
  rw [charBefore_cons, ← runGreedy_of_refuses hf (fun z hz => hs z (by simp [hz])) ht]
  exact if_pos (hs y (by simp))

theorem run_some1_eq_none (ht : t.head?.any k.contains = false) :
    (some1 k).run ⟨before, t⟩ cap f = none := by
  cases t with
  | nil => rfl
  | cons y t =>
    have hy : ¬ k.contains y := by simpa using ht
    exact if_neg hy

theorem run_some1_of_refuses_eq_none (hf : Refuses k f) (hs : ∀ y ∈ s, k.contains y)
    (ht : t.head?.any k.contains = false) (hnone : ∀ b c, f ⟨b, t⟩ c = none) :
    (some1 k).run ⟨before, s ++ t⟩ cap f = none := by
  cases s with
  | nil => exact run_some1_eq_none ht
  | cons y s => rw [run_some1_of_refuses hf (by simp) hs ht, hnone]

/-- A captured part behind which the continuation wants something else is taken whole. -/
theorem run_capture_of_refuses (hf : Refuses k f) (hne : s ≠ []) (hs : ∀ y ∈ s, k.contains y)
    (ht : t.head?.any k.contains = false) :
    (capture (some1 k)).run ⟨before, s ++ t⟩ cap f = f ⟨charBefore before s, t⟩ (some s) := by
  have hcap : Refuses k fun b (_ : Option Text) => f b (some (Cursor.textTo ⟨before, s ++ t⟩ b)) :=
    fun before x xs _ hx => hf before x xs _ hx
  rw [run, run_some1_of_refuses hcap hne hs ht, Cursor.textTo_eq rfl]

end Steps

/-- A captured run with nothing behind it in the pattern is taken whole. -/
theorem matchAt?_capture_some1 {k : CharClass} (hne : s ≠ []) (hs : ∀ y ∈ s, k.contains y)
    (ht : t.head?.any k.contains = false) :
    (capture (some1 k)).matchAt? ⟨before, s ++ t⟩ = some s := by
  have hm : (capture (some1 k)).Matches before s t (some s) :=
    ⟨⟨none, matches_some1.2 ⟨hne, hs, rfl⟩⟩, rfl⟩
  have hsome : ((capture (some1 k)).matchAt? ⟨before, s ++ t⟩).isSome :=
    run_isSome_of_matches _ hm rfl
  obtain ⟨n, hn⟩ := Option.isSome_iff_exists.1 hsome
  obtain ⟨rfl, -⟩ := eq_takeWhile_of_run_capture hn
  rw [hn, takeWhile_append_stop hs ht]

/-! ## Reluctant parts -/

theorem matchAt?_literal_append : (literal w ++ p).matchAt? ⟨before, t⟩ = some n ↔
    ∃ u, t = w ++ u ∧ p.matchAt? ⟨charBefore before w, u⟩ = some n := by
  constructor
  · intro h
    by_cases hw : w <+: t
    · obtain ⟨u, rfl⟩ := hw
      exact ⟨u, rfl, run_literal.symm.trans h⟩
    · have hnone : (literal w ++ p).matchAt? ⟨before, t⟩ = none := run_literal_eq_none hw
      rw [hnone] at h
      cases h
  · rintro ⟨u, rfl, h⟩
    exact run_literal.trans h

/-- A captured reluctant part ends at the first place where the rest of the pattern matches. -/
theorem matchAt?_reluctant_iff {k : CharClass} (hq : q.IsPlain) :
    (capture (many k .reluctant) ++ q).matchAt? ⟨before, t⟩ = some n ↔
      ∃ after, t = n ++ after ∧ (∀ y ∈ n, k.contains y) ∧
        (q.matchAt? ⟨charBefore before n, after⟩).isSome ∧ FailsWithin q.matchAt? before n after := by
  have hrun : (capture (many k .reluctant) ++ q).matchAt? ⟨before, t⟩ =
      runReluctant k (fun b => (q.matchAt? b).map fun _ => Cursor.textTo ⟨before, t⟩ b) before t := by
    show runReluctant k _ before t = _
    congr 1
    funext b
    exact hq.run_eq_map b (some (Cursor.textTo ⟨before, t⟩ b))
  rw [hrun, runReluctant_eq_some_iff]
  constructor
  · rintro ⟨s, after, rfl, hs, hx, hfails⟩
    obtain ⟨m, hm, rfl⟩ := Option.map_eq_some_iff.1 hx
    rw [Cursor.textTo_eq rfl]
    refine ⟨after, rfl, hs, by rw [hm]; rfl, fun a b hab hb => ?_⟩
    exact Option.map_eq_none_iff.1 (hfails a b hab hb)
  · rintro ⟨after, rfl, hs, hx, hfails⟩
    obtain ⟨m, hm⟩ := Option.isSome_iff_exists.1 hx
    refine ⟨n, after, rfl, hs, ?_, fun a b hab hb => ?_⟩
    · rw [hm, Option.map_some, Cursor.textTo_eq rfl]
    · exact Option.map_eq_none_iff.2 (hfails a b hab hb)

end Bookbinder.Pattern
