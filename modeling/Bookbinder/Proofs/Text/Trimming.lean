import Bookbinder.Proofs.Text.Cutting

/-!
# Trimming texts

What trimming does to a text in pieces. A blank at either end goes (`trim_cons_of_blank`,
`trim_concat_of_blank`); a text that starts with another character keeps its start and is trimmed
behind it (`trim_cons_of_not_blank`). Trimming one end first does not change the result
(`trim_trimEnd`), so a text may be trimmed as a line of a block and again as a value of the line.

A text consists of blanks or has a first word (`isBlankRun_or_isFirstWord`), and that is the first of its
words (`IsFirstWord.head?_words`).
-/

namespace Bookbinder

variable {x : Char} {s t : Text}

def HasNoBlank (t : Text) : Prop := ∀ x ∈ t, isBlank x = false

instance (t : Text) : Decidable (HasNoBlank t) := List.decidableBAll _ t

def IsBlankRun (t : Text) : Prop := ∀ x ∈ t, isBlank x

instance (t : Text) : Decidable (IsBlankRun t) := List.decidableBAll _ t

/-- Blanks, at least one. -/
def IsSpace (t : Text) : Prop := t ≠ [] ∧ IsBlankRun t

instance (t : Text) : Decidable (IsSpace t) :=
  inferInstanceAs (Decidable (t ≠ [] ∧ IsBlankRun t))

/-! ## One end -/

theorem trimStart_cons_of_blank (h : isBlank x) (t : Text) : trimStart (x :: t) = trimStart t :=
  List.dropWhile_cons_of_pos h

theorem trimStart_cons_of_not_blank (h : isBlank x = false) (t : Text) :
    trimStart (x :: t) = x :: t :=
  List.dropWhile_cons_of_neg (by simp [h])

theorem trimStart_eq_self (h : ∀ x, t.head? = some x → isBlank x = false) : trimStart t = t := by
  cases t with
  | nil => rfl
  | cons x t => exact trimStart_cons_of_not_blank (h x rfl) t

theorem trimStart_eq_nil_iff : trimStart t = [] ↔ IsBlankRun t := by
  induction t with
  | nil => simp [trimStart, IsBlankRun]
  | cons x t ih =>
    by_cases hx : isBlank x
    · rw [trimStart_cons_of_blank hx, ih]
      simp [IsBlankRun, hx]
    · rw [trimStart_cons_of_not_blank (by simpa using hx)]
      simp [IsBlankRun, hx]

theorem trimStart_trimStart (t : Text) : trimStart (trimStart t) = trimStart t := by
  apply trimStart_eq_self
  intro x hx
  have h := head?_dropWhile isBlank t
  rw [trimStart] at hx
  rwa [hx] at h

/-- The end of a text behind which only blanks stand is the end of what comes before. -/
theorem trimEnd_append (s t : Text) :
    trimEnd (s ++ t) = if trimEnd t = [] then trimEnd s else s ++ trimEnd t := by
  unfold trimEnd dropEndWhile
  rw [List.reverse_append, List.dropWhile_append]
  by_cases h : t.reverse.dropWhile isBlank = []
  · simp [h]
  · simp [h]

theorem trimEnd_cons_of_not_blank (h : isBlank x = false) (t : Text) :
    trimEnd (x :: t) = x :: trimEnd t := by
  have hx : trimEnd [x] = [x] := by simp [trimEnd, dropEndWhile, h]
  rw [← List.singleton_append, trimEnd_append, hx]
  split
  · simp_all
  · rfl

theorem trimEnd_concat_of_blank (h : isBlank x) (t : Text) : trimEnd (t ++ [x]) = trimEnd t := by
  have hx : trimEnd [x] = [] := by simp [trimEnd, dropEndWhile, h]
  rw [trimEnd_append, if_pos hx]

theorem trimEnd_eq_self (h : HasNoBlank t) : trimEnd t = t := by
  induction t with
  | nil => rfl
  | cons x t ih =>
    rw [trimEnd_cons_of_not_blank (h x (by simp)), ih fun y hy => h y (by simp [hy])]

theorem trimEnd_trimEnd (t : Text) : trimEnd (trimEnd t) = trimEnd t := by
  have h := trimStart_trimStart t.reverse
  simp only [trimStart] at h
  simp [trimEnd, dropEndWhile, h]

/-! ## Both ends -/

/-- It does not matter which end is trimmed first. -/
theorem trimStart_trimEnd (t : Text) : trimStart (trimEnd t) = trim t := by
  unfold trim
  induction t with
  | nil => rfl
  | cons x t ih =>
    cases hx : isBlank x with
    | true =>
      have hb : trimEnd [x] = [] := by simp [trimEnd, dropEndWhile, hx]
      rw [trimStart_cons_of_blank hx, ← ih, ← List.singleton_append, trimEnd_append, hb]
      split
      · simp_all
      · exact trimStart_cons_of_blank hx _
    | false =>
      rw [trimEnd_cons_of_not_blank hx, trimStart_cons_of_not_blank hx,
        trimStart_cons_of_not_blank hx, trimEnd_cons_of_not_blank hx]

theorem trim_trimEnd (t : Text) : trim (trimEnd t) = trim t := by
  rw [← trimStart_trimEnd, trimEnd_trimEnd, trimStart_trimEnd]

theorem trim_trim (t : Text) : trim (trim t) = trim t := by
  rw [trim.eq_def t, trim_trimEnd, trim, trimStart_trimStart]

theorem head?_of_trimmed (h : trim t = t) : t.head?.any isBlank = false := by
  have hhead := head?_dropWhile isBlank (trimEnd t)
  have htrim : (trimEnd t).dropWhile isBlank = t := (trimStart_trimEnd t).trans h
  rwa [htrim] at hhead

theorem trim_cons_of_blank (h : isBlank x) (t : Text) : trim (x :: t) = trim t := by
  rw [trim, trimStart_cons_of_blank h, ← trim]

theorem trim_concat_of_blank (h : isBlank x) (t : Text) : trim (t ++ [x]) = trim t := by
  rw [← trimStart_trimEnd, trimEnd_concat_of_blank h, trimStart_trimEnd]

theorem trim_cons_of_not_blank (h : isBlank x = false) (t : Text) :
    trim (x :: t) = x :: trimEnd t := by
  rw [trim, trimStart_cons_of_not_blank h, trimEnd_cons_of_not_blank h]

/-- A text with a start of its own is trimmed behind a character that is no blank. -/
theorem trim_append_cons (hs : trimStart (s ++ x :: t) = s ++ x :: t) (hx : isBlank x = false) :
    trim (s ++ x :: t) = s ++ x :: trimEnd t := by
  rw [trim, hs, trimEnd_append, trimEnd_cons_of_not_blank hx, if_neg (by simp)]

theorem trim_eq_nil_of_trimEnd (h : trimEnd t = []) : trim t = [] := by
  rw [← trimStart_trimEnd, h]
  rfl

/-! ## Words -/

theorem splitWord_append_blank (h : HasNoBlank s) (hx : isBlank x) (t : Text) :
    splitWord (s ++ x :: t) = (s, t) := by
  rw [splitWord, splitOnce_append_cons h hx]
  rfl

theorem splitWord_eq_self (h : HasNoBlank s) : splitWord s = (s, []) := by
  have hs : splitOnce isBlank s = none := by
    induction s with
    | nil => rfl
    | cons y s ih =>
      have hy : isBlank y = false := h y (by simp)
      rw [splitOnce, if_neg (by simp [hy]), ih fun z hz => h z (by simp [hz])]
      rfl
  rw [splitWord, hs]
  rfl

/-- The word goes on to the first blank. -/
theorem splitWord_eq (t : Text) :
    splitWord t = (t.takeWhile (!isBlank ·), (t.dropWhile (!isBlank ·)).tail) := by
  induction t with
  | nil => rfl
  | cons x t ih =>
    by_cases hx : isBlank x
    · simp [splitWord, splitOnce, hx]
    · have hstep : splitWord (x :: t) = (x :: (splitWord t).1, (splitWord t).2) := by
        rw [splitWord, splitWord, splitOnce, if_neg hx]
        cases splitOnce isBlank t <;> rfl
      rw [hstep, ih]
      simp [hx]

theorem hasNoBlank_takeWhile (t : Text) : HasNoBlank (t.takeWhile (!isBlank ·)) := by
  intro x hx
  simpa using List.all_eq_true.1 List.all_takeWhile x hx

/-- A text with a blank has a first one. -/
theorem exists_first_blank (h : ¬HasNoBlank t) : ∃ a x b, t = a ++ x :: b ∧ HasNoBlank a ∧ isBlank x := by
  have hcut := List.takeWhile_append_dropWhile (p := (!isBlank ·)) (l := t)
  have hbefore := hasNoBlank_takeWhile t
  cases hd : t.dropWhile (!isBlank ·) with
  | nil =>
    rw [hd, List.append_nil] at hcut
    rw [hcut] at hbefore
    exact absurd hbefore h
  | cons x b =>
    have hx := head?_dropWhile (!isBlank ·) t
    rw [hd] at hx hcut
    exact ⟨_, x, b, hcut.symm, hbefore, by simpa using hx⟩

/-! ## The first word -/

/-- The text starts with this word, blanks in front of it not counted. -/
def IsFirstWord (t w : Text) : Prop :=
  ∃ lead rest, t = lead ++ (w ++ rest) ∧ IsBlankRun lead ∧ w ≠ [] ∧ (∀ x ∈ w, isBlank x = false) ∧
    ∀ x ∈ rest.head?, isBlank x

theorem words_cons_of_blank {x : Char} (hx : isBlank x) (t : Text) : words (x :: t) = words t := by
  rw [words, splitWhen_cons_of_pos hx]
  rfl

theorem words_eq_nil {t : Text} (h : IsBlankRun t) : words t = [] := by
  induction t with
  | nil => rfl
  | cons x t ih =>
    rw [words_cons_of_blank (h x List.mem_cons_self)]
    exact ih fun y hy => h y (List.mem_cons_of_mem x hy)

theorem IsFirstWord.head?_words {t w : Text} (h : IsFirstWord t w) : (words t).head? = some w := by
  obtain ⟨lead, rest, rfl, hlead, hne, hword, hrest⟩ := h
  induction lead with
  | cons x lead ih =>
    rw [List.cons_append, words_cons_of_blank (hlead x List.mem_cons_self)]
    exact ih fun y hy => hlead y (List.mem_cons_of_mem x hy)
  | nil =>
    have hsplit := splitWhen_eq_singleton hword
    cases rest with
    | nil => simp [words, hsplit, hne]
    | cons x rest => simp [words, splitWhen_append_cons (hrest x rfl), hsplit, hne]

theorem IsFirstWord.unique {t w w' : Text} (h : IsFirstWord t w) (h' : IsFirstWord t w') : w = w' :=
  Option.some.inj (h.head?_words.symm.trans h'.head?_words)

/-- A word goes on to the first blank. -/
theorem isFirstWord_takeWhile {t : Text} (h : t.takeWhile (!isBlank ·) ≠ []) :
    IsFirstWord t (t.takeWhile (!isBlank ·)) := by
  refine ⟨[], t.dropWhile (!isBlank ·), ?_, by simp [IsBlankRun], h, hasNoBlank_takeWhile t, ?_⟩
  · simp
  · intro x hx
    have hstop := head?_dropWhile (!isBlank ·) t
    rw [hx] at hstop
    simpa using hstop

theorem isBlankRun_or_isFirstWord (t : Text) : IsBlankRun t ∨ ∃ w, IsFirstWord t w := by
  induction t with
  | nil => exact .inl (by simp [IsBlankRun])
  | cons x t ih =>
    by_cases hx : isBlank x
    · rcases ih with h | ⟨w, lead, rest, rfl, hlead, hw⟩
      · exact .inl (List.forall_mem_cons.2 ⟨hx, h⟩)
      · exact .inr ⟨w, x :: lead, rest, rfl, List.forall_mem_cons.2 ⟨hx, hlead⟩, hw⟩
    · exact .inr ⟨_, isFirstWord_takeWhile (by simp [hx])⟩

end Bookbinder
