import Bookbinder.Script.Extract
import Bookbinder.Proofs.Text.Cutting
import Mathlib.Data.List.Induction

/-!
# Positions in a source

A position names a row of the source, counted from 1, and a number of bytes in that row.
`textBefore? t p` reads it that way and gives the text in front of the place, if there is such a place;
`slice? t p q` is the text between two places. The point behind a text that a source begins with has the
position in front of which that text stands (`textBefore?_behind`), and positions are ordered as the
texts in front of them are (`Point.position_le_behind`, `Point.position_lt_behind`).
-/

namespace Bookbinder

/-- The text in front of a position: the rows above it and the first bytes of its own row. -/
def textBefore? (t : Text) (p : Position) : Option Text :=
  ((lines t)[p.line - 1]?.bind (takeBytes? · p.column)).map fun head =>
    joinWith ['\n'] ((lines t).take (p.line - 1) ++ [head])

/-- The text between two positions. -/
def slice? (t : Text) (p q : Position) : Option Text :=
  (textBefore? t p).bind fun a => (textBefore? t q).bind fun b => stripHead? a b

/-! ## Order -/

instance : LE Position := ⟨fun p q => p.line < q.line ∨ p.line = q.line ∧ p.column ≤ q.column⟩

instance : LT Position := ⟨fun p q => p.line < q.line ∨ p.line = q.line ∧ p.column < q.column⟩

namespace Position

variable {p q r : Position}

theorem le_def : p ≤ q ↔ p.line < q.line ∨ p.line = q.line ∧ p.column ≤ q.column := Iff.rfl

theorem lt_def : p < q ↔ p.line < q.line ∨ p.line = q.line ∧ p.column < q.column := Iff.rfl

theorem le_trans (hpq : p ≤ q) (hqr : q ≤ r) : p ≤ r := by
  rw [le_def] at *
  omega

theorem line_le_of_le (h : p ≤ q) : p.line ≤ q.line := by
  rw [le_def] at h
  omega

end Position

namespace Point

theorem advance_append (p : Point) (s t : Text) : p.advance (s ++ t) = (p.advance s).advance t := by
  induction s generalizing p with
  | nil => rfl
  | cons x s ih => exact ih _

theorem behind_append (s t : Text) : behind (s ++ t) = (behind s).advance t := advance_append _ s t

theorem position_le_advance (p : Point) (s : Text) : p.position ≤ (p.advance s).position := by
  induction s generalizing p with
  | nil => exact Or.inr ⟨rfl, Nat.le_refl _⟩
  | cons x s ih =>
    refine Position.le_trans ?_ (ih _)
    split
    · exact Or.inl (Nat.lt_succ_self _)
    · exact Or.inr ⟨rfl, Nat.le_add_right _ _⟩

theorem position_lt_advance (p : Point) {s : Text} (hs : s ≠ []) :
    p.position < (p.advance s).position := by
  obtain ⟨x, s, rfl⟩ := List.exists_cons_of_ne_nil hs
  have hx := x.utf8Size_pos
  rw [advance]
  split
  · have hle := Position.line_le_of_le (position_le_advance ⟨p.row + 1, 0⟩ s)
    exact Or.inl hle
  · have hle := position_le_advance ⟨p.row, p.column + x.utf8Size⟩ s
    simp only [Position.le_def, position] at hle
    rw [Position.lt_def]
    simp only [position]
    omega

theorem position_le_behind (s t : Text) : (behind s).position ≤ (behind (s ++ t)).position := by
  rw [behind_append]
  exact position_le_advance _ t

theorem position_lt_behind (s : Text) {t : Text} (ht : t ≠ []) :
    (behind s).position < (behind (s ++ t)).position := by
  rw [behind_append]
  exact position_lt_advance _ ht

end Point

/-! ## Rows -/

theorem byteLength_cons (x : Char) (s : Text) : byteLength (x :: s) = x.utf8Size + byteLength s := rfl

theorem byteLength_append (s t : Text) : byteLength (s ++ t) = byteLength s + byteLength t := by
  induction s with
  | nil => rw [List.nil_append, show byteLength [] = 0 from rfl, Nat.zero_add]
  | cons x s ih => rw [List.cons_append, byteLength_cons, byteLength_cons, ih, Nat.add_assoc]

theorem byteLength_eq_zero {s : Text} : byteLength s = 0 ↔ s = [] := by
  cases s with
  | nil => exact iff_of_true rfl rfl
  | cons x s =>
    have hx := x.utf8Size_pos
    rw [byteLength_cons]
    exact iff_of_false (by omega) (by simp)

theorem takeBytes?_append (s t : Text) : takeBytes? (s ++ t) (byteLength s) = some s := by
  induction s with
  | nil => cases t <;> rfl
  | cons x s ih =>
    have hx := x.utf8Size_pos
    rw [List.cons_append, takeBytes?, byteLength_cons, if_neg (by omega), if_pos (by omega),
      Nat.add_sub_cancel_left, ih]
    rfl

/-- The first bytes of a text are those of a text that it begins with. -/
theorem takeBytes?_eq_some {t s : Text} {n : Nat} (h : takeBytes? t n = some s) :
    s <+: t ∧ byteLength s = n := by
  induction t generalizing s n with
  | nil =>
    rw [takeBytes?] at h
    split at h
    · rename_i hn
      cases h
      exact ⟨List.prefix_refl _, hn.symm⟩
    · cases h
  | cons x t ih =>
    rw [takeBytes?] at h
    split at h
    · rename_i hn
      cases h
      exact ⟨List.nil_prefix, hn.symm⟩
    · split at h
      · obtain ⟨s, hs, rfl⟩ := Option.map_eq_some_iff.1 h
        obtain ⟨hp, hlen⟩ := ih hs
        refine ⟨(List.prefix_cons_inj x).2 hp, ?_⟩
        rw [byteLength_cons, hlen]
        omega
      · cases h

/-- Of two texts that a text begins with, the one with fewer bytes begins the other. -/
theorem prefix_of_byteLength_le {s s' t : Text} (h : s <+: t) (h' : s' <+: t)
    (hle : byteLength s ≤ byteLength s') : s <+: s' := by
  rcases List.prefix_or_prefix_of_prefix h h' with hp | ⟨u, rfl⟩
  · exact hp
  · cases u with
    | nil => simp
    | cons x u =>
      have hx := x.utf8Size_pos
      rw [byteLength_append, byteLength_cons] at hle
      omega

/-- The rows of a text and of one that it begins: the last row goes on, the rows above are the same.
The point behind the beginning is the end of its last row. -/
theorem exists_rows (s : Text) :
    ∃ above row, Point.behind s = ⟨above.length, byteLength row⟩ ∧
      ∀ t piece pieces, lines t = piece :: pieces →
        lines (s ++ t) = above ++ (row ++ piece) :: pieces := by
  induction s using List.reverseRecOn with
  | nil => exact ⟨[], [], rfl, fun t piece pieces ht => ht⟩
  | append_singleton s x ih =>
    obtain ⟨above, row, hp, hrows⟩ := ih
    by_cases hx : x = '\n'
    · refine ⟨above ++ [row], [], ?_, fun t piece pieces ht => ?_⟩
      · rw [Point.behind_append, hp, hx]
        simp [Point.advance, byteLength, total]
      · have hline : lines (x :: t) = [] :: piece :: pieces := by
          rw [lines, splitWhen_cons_of_pos (by simp [hx])]
          exact congrArg ([] :: ·) ht
        rw [List.append_assoc, List.singleton_append, hrows _ _ _ hline]
        simp
    · refine ⟨above, row ++ [x], ?_, fun t piece pieces ht => ?_⟩
      · rw [Point.behind_append, hp, byteLength_append]
        simp [Point.advance, hx, byteLength, total]
      · have hline : lines (x :: t) = (x :: piece) :: pieces :=
          splitWhen_cons_of_neg (by simp [hx]) ht
        rw [List.append_assoc, List.singleton_append, hrows _ _ _ hline]
        simp

theorem textBefore?_behind (s t : Text) :
    textBefore? (s ++ t) (Point.behind s).position = some s := by
  obtain ⟨above, row, hp, hrows⟩ := exists_rows s
  obtain ⟨piece, pieces, ht⟩ := List.exists_cons_of_ne_nil (splitWhen_ne_nil (· == '\n') t)
  have hs : lines s = above ++ [row] := by
    have := hrows [] [] [] rfl
    rwa [List.append_nil, List.append_nil] at this
  rw [textBefore?, hp, hrows t piece pieces ht]
  simp only [Point.position, Nat.add_sub_cancel, List.getElem?_append_right (Nat.le_refl _),
    Nat.sub_self, List.getElem?_cons_zero, Option.bind_some, takeBytes?_append, Option.map_some,
    List.take_left]
  rw [← hs]
  exact congrArg some (joinWith_splitWhen '\n' s)

/-- A stretch of a text lies between the positions in front of it and behind it. -/
theorem slice?_behind (pre s post : Text) :
    slice? (pre ++ s ++ post) (Point.behind pre).position (Point.behind (pre ++ s)).position =
      some s := by
  rw [slice?, textBefore?_behind, List.append_assoc, textBefore?_behind]
  exact stripHead?_append pre s

/-- No position of a text lies below its last row. -/
theorem line_behind_le (s t : Text) : (Point.behind s).position.line ≤ (lines (s ++ t)).length := by
  obtain ⟨above, row, hp, hrows⟩ := exists_rows s
  obtain ⟨piece, pieces, ht⟩ := List.exists_cons_of_ne_nil (splitWhen_ne_nil (· == '\n') t)
  rw [hp, hrows t piece pieces ht, List.length_append, List.length_cons]
  change above.length + 1 ≤ above.length + (pieces.length + 1)
  omega

end Bookbinder
