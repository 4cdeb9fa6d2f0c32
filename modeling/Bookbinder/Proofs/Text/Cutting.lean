import Bookbinder.Text.Basic

/-!
# Cutting texts

Small facts about trimming and splitting: a trimmed text does not end in a blank, splitting at a
separator that stands between two texts splits both on their own, and the pieces of a split with the
separator between them give the text back.
-/

namespace Bookbinder

/-! ## Trimming -/

theorem head?_dropWhile (p : Char → Bool) (t : Text) : (t.dropWhile p).head?.any p = false := by
  have h := List.head?_dropWhile_not p t
  cases hd : (t.dropWhile p).head? with
  | none => rfl
  | some x =>
    rw [hd] at h
    simpa using h

/-- A run ends where a character outside of the class comes next. -/
theorem takeWhile_append_stop {p : Char → Bool} {s t : Text} (hs : ∀ x ∈ s, p x)
    (ht : t.head?.any p = false) : (s ++ t).takeWhile p = s := by
  rw [List.takeWhile_append_of_pos hs]
  cases t with
  | nil => simp
  | cons x t =>
    have hx : ¬ p x := by simpa using ht
    rw [List.takeWhile_cons_of_neg hx, List.append_nil]

theorem takeWhile_ne_nil_iff {p : Char → Bool} {t : Text} : t.takeWhile p ≠ [] ↔ t.head?.any p := by
  cases t with
  | nil => simp
  | cons x t => by_cases hx : p x <;> simp [hx]

theorem dropWhile_append_stop {p : Char → Bool} {s t : Text} (hs : ∀ x ∈ s, p x)
    (ht : t.head?.any p = false) : (s ++ t).dropWhile p = t := by
  rw [List.dropWhile_append_of_pos hs]
  cases t with
  | nil => rfl
  | cons x t =>
    have hx : ¬ p x := by simpa using ht
    exact List.dropWhile_cons_of_neg hx

theorem getLast?_dropEndWhile (p : Char → Bool) (t : Text) :
    (dropEndWhile p t).getLast?.any p = false := by
  rw [dropEndWhile, List.getLast?_reverse]
  exact head?_dropWhile p t.reverse

/-- What stands in front of another character stays. -/
theorem dropEndWhile_append_cons {p : Char → Bool} {x : Char} (hx : p x = false) (s t : Text) :
    dropEndWhile p (s ++ x :: t) = s ++ x :: dropEndWhile p t := by
  unfold dropEndWhile
  rw [List.reverse_append, List.reverse_cons, List.append_assoc, List.singleton_append,
    List.dropWhile_append]
  split
  · rename_i h
    rw [List.dropWhile_cons_of_neg (by simp [hx]), List.isEmpty_iff.1 h]
    simp
  · simp

/-- A trimmed text does not end in a blank. -/
theorem getLast?_trim (t : Text) : (trim t).getLast?.any isBlank = false :=
  getLast?_dropEndWhile isBlank (trimStart t)

/-! ## Splitting -/

theorem splitWhen_ne_nil (p : Char → Bool) (t : Text) : splitWhen p t ≠ [] := by
  cases t with
  | nil => simp [splitWhen]
  | cons x t =>
    rw [splitWhen]
    split
    · simp
    · split <;> simp

theorem splitWhen_cons_of_pos {p : Char → Bool} {x : Char} (hx : p x) (t : Text) :
    splitWhen p (x :: t) = [] :: splitWhen p t := by
  rw [splitWhen, if_pos hx]

theorem splitWhen_cons_of_neg {p : Char → Bool} {x : Char} (hx : p x = false) {t piece : Text}
    {pieces : List Text} (ht : splitWhen p t = piece :: pieces) :
    splitWhen p (x :: t) = (x :: piece) :: pieces := by
  rw [splitWhen, if_neg (by simp [hx]), ht]

/-- The separator between two texts keeps their pieces apart. -/
theorem splitWhen_append_cons {p : Char → Bool} {x : Char} (hx : p x) (s t : Text) :
    splitWhen p (s ++ x :: t) = splitWhen p s ++ splitWhen p t := by
  induction s with
  | nil => exact splitWhen_cons_of_pos hx t
  | cons y s ih =>
    rw [List.cons_append]
    cases hy : p y with
    | true => rw [splitWhen_cons_of_pos hy, splitWhen_cons_of_pos hy, ih, List.cons_append]
    | false =>
      obtain ⟨piece, pieces, hs⟩ := List.exists_cons_of_ne_nil (splitWhen_ne_nil p s)
      rw [hs, List.cons_append] at ih
      rw [splitWhen_cons_of_neg hy hs, splitWhen_cons_of_neg hy ih, List.cons_append]

/-- A text without separators is one piece. -/
theorem splitWhen_eq_singleton {p : Char → Bool} {t : Text} (h : ∀ x ∈ t, p x = false) :
    splitWhen p t = [t] := by
  induction t with
  | nil => rfl
  | cons x t ih =>
    exact splitWhen_cons_of_neg (h x (by simp)) (ih fun y hy => h y (by simp [hy]))

theorem splitWhen_eq_singleton_of_not_mem {x : Char} {t : Text} (h : x ∉ t) :
    splitWhen (· == x) t = [t] := by
  refine splitWhen_eq_singleton fun y hy => ?_
  rw [beq_eq_false_iff_ne]
  rintro rfl
  exact h hy

theorem joinWith_cons_cons (sep s t : Text) (ts : List Text) :
    joinWith sep (s :: t :: ts) = s ++ sep ++ joinWith sep (t :: ts) := rfl

theorem joinWith_append (sep : Text) {ss ts : List Text} (hs : ss ≠ []) (ht : ts ≠ []) :
    joinWith sep (ss ++ ts) = joinWith sep ss ++ sep ++ joinWith sep ts := by
  obtain ⟨t, ts, rfl⟩ := List.exists_cons_of_ne_nil ht
  induction ss with
  | nil => exact absurd rfl hs
  | cons s ss ih =>
    cases ss with
    | nil => exact joinWith_cons_cons ..
    | cons s' ss =>
      have := ih (by simp)
      rw [List.cons_append, List.cons_append, joinWith_cons_cons, ← List.cons_append, this,
        joinWith_cons_cons]
      simp

/-- The pieces with the separator between them give the text back. -/
theorem joinWith_splitWhen (x : Char) (t : Text) : joinWith [x] (splitWhen (· == x) t) = t := by
  induction t with
  | nil => rfl
  | cons y t ih =>
    obtain ⟨piece, pieces, ht⟩ := List.exists_cons_of_ne_nil (splitWhen_ne_nil (· == x) t)
    rw [ht] at ih
    cases hy : y == x with
    | true =>
      rw [splitWhen_cons_of_pos (p := (· == x)) hy, ht, joinWith_cons_cons, ih, beq_iff_eq.1 hy]
      rfl
    | false =>
      rw [splitWhen_cons_of_neg (p := (· == x)) hy ht]
      cases pieces with
      | nil => exact congrArg (y :: ·) ih
      | cons q qs => exact congrArg (y :: ·) ih

/-- No separator is left in a piece. -/
theorem of_mem_splitWhen {p : Char → Bool} {t piece : Text} (h : piece ∈ splitWhen p t) :
    ∀ x ∈ piece, p x = false := by
  induction t generalizing piece with
  | nil => simp_all [splitWhen]
  | cons y t ih =>
    cases hy : p y with
    | true =>
      rw [splitWhen_cons_of_pos hy] at h
      rcases List.mem_cons.1 h with rfl | h
      · simp
      · exact ih h
    | false =>
      obtain ⟨q, qs, ht⟩ := List.exists_cons_of_ne_nil (splitWhen_ne_nil p t)
      rw [splitWhen_cons_of_neg hy ht] at h
      rw [ht] at ih
      rcases List.mem_cons.1 h with rfl | h
      · intro x hx
        rcases List.mem_cons.1 hx with rfl | hx
        · exact hy
        · exact ih (List.mem_cons_self ..) x hx
      · exact ih (List.mem_cons_of_mem _ h)

theorem of_mem_joinWith {sep : Text} {ts : List Text} {x : Char} (h : x ∈ joinWith sep ts) :
    x ∈ sep ∨ ∃ t ∈ ts, x ∈ t := by
  induction ts with
  | nil => simp [joinWith] at h
  | cons s ts ih =>
    cases ts with
    | nil => exact .inr ⟨s, by simp, h⟩
    | cons t ts =>
      rw [joinWith_cons_cons, List.mem_append, List.mem_append] at h
      rcases h with (h | h) | h
      · exact .inr ⟨s, by simp, h⟩
      · exact .inl h
      · exact (ih h).imp_right fun ⟨u, hu, hx⟩ => ⟨u, List.mem_cons_of_mem _ hu, hx⟩

/-- Joined texts without separators are the pieces of the result. -/
theorem splitWhen_joinWith {x : Char} {t : Text} {ts : List Text} (h : ∀ u ∈ t :: ts, x ∉ u) :
    splitWhen (· == x) (joinWith [x] (t :: ts)) = t :: ts := by
  induction ts generalizing t with
  | nil => exact splitWhen_eq_singleton_of_not_mem (h t (by simp))
  | cons u ts ih =>
    rw [joinWith_cons_cons, List.append_assoc, List.singleton_append,
      splitWhen_append_cons (by simp), splitWhen_eq_singleton_of_not_mem (h t (by simp)),
      List.singleton_append, ih fun v hv => h v (List.mem_cons_of_mem _ hv)]

/-! ## Lines -/

theorem lines_of_not_mem {t : Text} (h : '\n' ∉ t) : lines t = [t] :=
  splitWhen_eq_singleton_of_not_mem h

theorem lines_append_cons_newline (s t : Text) : lines (s ++ '\n' :: t) = lines s ++ lines t :=
  splitWhen_append_cons (by simp) s t

theorem lines_append_newline {s : Text} (h : '\n' ∉ s) (t : Text) :
    lines (s ++ '\n' :: t) = s :: lines t := by
  rw [lines_append_cons_newline, lines_of_not_mem h, List.singleton_append]

theorem lines_cons_newline (t : Text) : lines ('\n' :: t) = [] :: lines t :=
  splitWhen_cons_of_pos (by simp) t

theorem exists_lines_eq_cons (t : Text) : ∃ l ls, lines t = l :: ls :=
  List.exists_cons_of_ne_nil (splitWhen_ne_nil _ t)

theorem newline_not_mem_of_mem_lines {t l : Text} (h : l ∈ lines t) : '\n' ∉ l := by
  intro hn
  have hx := of_mem_splitWhen h '\n' hn
  simp at hx

theorem lines_cons_of_ne {x : Char} (hx : x ≠ '\n') {t l : Text} {ls : List Text}
    (ht : lines t = l :: ls) : lines (x :: t) = (x :: l) :: ls :=
  splitWhen_cons_of_neg (by simp [hx]) ht

/-- Text without line feeds in front goes on with the first line. -/
theorem lines_append_of_not_mem {s t l : Text} {ls : List Text} (h : '\n' ∉ s) (ht : lines t = l :: ls) :
    lines (s ++ t) = (s ++ l) :: ls := by
  induction s with
  | nil => exact ht
  | cons x s ih =>
    obtain ⟨hx, hs⟩ := List.ne_and_not_mem_of_not_mem_cons h
    exact lines_cons_of_ne hx.symm (ih hs)

theorem length_lines (t : Text) : (lines t).length = t.count '\n' + 1 := by
  induction t with
  | nil => rfl
  | cons x t ih =>
    by_cases hx : x = '\n'
    · rw [hx, lines_cons_newline, List.length_cons, ih, List.count_cons_self]
    · obtain ⟨l, ls, hl⟩ := exists_lines_eq_cons t
      rw [lines_cons_of_ne hx hl, List.count_cons_of_ne hx, ← ih, hl]
      rfl

theorem lines_joinWith {l : Text} {ls : List Text} (h : ∀ u ∈ l :: ls, '\n' ∉ u) :
    lines (joinWith ['\n'] (l :: ls)) = l :: ls := splitWhen_joinWith h

theorem joinWith_lines (t : Text) : joinWith ['\n'] (lines t) = t := joinWith_splitWhen '\n' t

/-! ## Heads and tails -/

/-- The first separator is the one behind a text without any. -/
theorem splitOnce_append_cons {p : Char → Bool} {x : Char} {s : Text} (h : ∀ y ∈ s, p y = false)
    (hx : p x) (t : Text) : splitOnce p (s ++ x :: t) = some (s, t) := by
  induction s with
  | nil => exact if_pos hx
  | cons y s ih =>
    have hy : p y = false := h y (by simp)
    rw [List.cons_append, splitOnce, if_neg (by simp [hy]), ih fun z hz => h z (by simp [hz])]
    rfl

/-- A cut is made at the first character of the class. -/
theorem exists_of_splitOnce {p : Char → Bool} {t s r : Text} (h : splitOnce p t = some (s, r)) :
    ∃ x, p x ∧ t = s ++ x :: r ∧ ∀ y ∈ s, p y = false := by
  induction t generalizing s with
  | nil => cases h
  | cons z t ih =>
    rw [splitOnce] at h
    split at h
    · rename_i hz
      cases h
      exact ⟨z, hz, rfl, by simp⟩
    · rename_i hz
      obtain ⟨⟨s', r'⟩, ht, he⟩ := Option.map_eq_some_iff.1 h
      cases he
      obtain ⟨x, hx, rfl, hs⟩ := ih ht
      refine ⟨x, hx, rfl, fun y hy => ?_⟩
      rcases List.mem_cons.1 hy with rfl | hy
      · simpa using hz
      · exact hs y hy

theorem stripHead?_append (s t : Text) : stripHead? s (s ++ t) = some t := by
  induction s with
  | nil => rfl
  | cons x s ih => rw [List.cons_append, stripHead?, if_pos rfl, ih]

theorem stripHead?_eq_some {head t r : Text} (h : stripHead? head t = some r) : t = head ++ r := by
  induction head generalizing t with
  | nil => exact Option.some.inj h
  | cons x head ih =>
    cases t with
    | nil => cases h
    | cons y t =>
      rw [stripHead?] at h
      split at h
      · rename_i hxy
        rw [hxy, ih h, List.cons_append]
      · cases h

theorem stripTail_append (s t : Text) : stripTail t (s ++ t) = s := by
  rw [stripTail, List.reverse_append, stripHead?_append]
  exact List.reverse_reverse s

/-! ## Character classes -/

theorem toNat_of_isWordChar {x : Char} (h : isWordChar x) :
    (48 ≤ x.toNat ∧ x.toNat ≤ 57) ∨ (65 ≤ x.toNat ∧ x.toNat ≤ 90) ∨ x.toNat = 95 ∨
      (97 ≤ x.toNat ∧ x.toNat ≤ 122) := by
  change (decide (x.val ≥ 65 ∧ x.val ≤ 90) || (x.val ≥ 97 && x.val ≤ 122) ||
    (x.val ≥ 48 && x.val ≤ 57) || x == '_') = true at h
  simp only [Bool.or_eq_true, Bool.and_eq_true, decide_eq_true_eq, beq_iff_eq,
    UInt32.le_iff_toNat_le, ge_iff_le] at h
  change (((65 ≤ x.toNat ∧ x.toNat ≤ 90) ∨ (97 ≤ x.toNat ∧ x.toNat ≤ 122)) ∨
    (48 ≤ x.toNat ∧ x.toNat ≤ 57)) ∨ x = '_' at h
  rcases h with h | rfl
  · omega
  · decide

/-- A blank is no word character. -/
theorem isWordChar_of_isBlank {x : Char} (h : isBlank x) : isWordChar x = false := by
  rw [← Bool.not_eq_true]
  intro hw
  have hn := toNat_of_isWordChar hw
  simp only [isBlank, inRanges, blankRanges, List.any_cons, List.any_nil, Bool.or_false,
    Bool.or_eq_true, Bool.and_eq_true, decide_eq_true_eq] at h
  omega

end Bookbinder
