import Bookbinder.Proofs.Text.Margins

/-!
# Joined texts

Pieces that are trimmed and not empty stay trimmed when they are joined (`trim_joinWith_eq_self`). Where
empty lines may be among the pieces, trimming the joined text takes off the empty lines at its ends and
nothing else (`exists_trim_joinWith`). The words of a text are those of its parts on either side of a blank
(`words_append_blank`), so joining words gives the words back (`words_joinWith`).
-/

namespace Bookbinder

variable {x : Char} {s t sep : Text} {ts ws : List Text}

/-! ## Trimmed texts -/

theorem trimmed_reverse (h : trim t = t) : trim t.reverse = t.reverse := by
  rw [trim_reverse, h]

/-- A text is trimmed if it neither starts nor ends in a blank. -/
theorem trim_eq_self (hs : t.head?.any isBlank = false) (he : t.getLast?.any isBlank = false) :
    trim t = t := by
  have hstart {t : Text} (h : t.head?.any isBlank = false) : trimStart t = t := by
    apply trimStart_eq_self
    intro x hx
    rwa [hx] at h
  have hend : trimEnd t = t := by
    rw [← List.head?_reverse] at he
    show (trimStart t.reverse).reverse = t
    rw [hstart he, List.reverse_reverse]
  rw [← trimStart_trimEnd, hend, hstart hs]

/-! ## Joins -/

theorem head?_joinWith_cons (ht : t ≠ []) (sep : Text) (ts : List Text) :
    (joinWith sep (t :: ts)).head? = t.head? := by
  obtain ⟨x, t, rfl⟩ := List.exists_cons_of_ne_nil ht
  cases ts <;> rfl

theorem joinWith_concat_append (sep : Text) (ts : List Text) (s t : Text) :
    joinWith sep (ts ++ [s]) ++ t = joinWith sep (ts ++ [s ++ t]) := by
  cases ts with
  | nil => rfl
  | cons u ts =>
    rw [joinWith_append sep (by simp) (by simp), joinWith_append sep (by simp) (by simp),
      List.append_assoc]
    rfl

/-- Trimmed pieces stay trimmed. -/
theorem trim_joinWith_eq_self (h : ∀ t ∈ ts, t ≠ [] ∧ trim t = t) :
    trim (joinWith sep ts) = joinWith sep ts := by
  have hhead {sep : Text} {ts : List Text} (h : ∀ t ∈ ts, t ≠ [] ∧ trim t = t) :
      (joinWith sep ts).head?.any isBlank = false := by
    cases ts with
    | nil => rfl
    | cons t ts =>
      obtain ⟨hne, htrim⟩ := h t List.mem_cons_self
      rw [head?_joinWith_cons hne]
      exact head?_of_trimmed htrim
  refine trim_eq_self (hhead h) ?_
  rw [← List.head?_reverse, reverse_joinWith]
  refine hhead fun t ht => ?_
  rw [List.mem_reverse, List.mem_map] at ht
  obtain ⟨u, hu, rfl⟩ := ht
  exact ⟨by simpa using (h u hu).1, trimmed_reverse (h u hu).2⟩

/-- Of trimmed lines, only empty ones are taken off the start. -/
theorem exists_trimStart_joinWith (h : ∀ t ∈ ts, trim t = t) :
    ∃ us, us <:+ ts ∧ trimStart (joinWith ['\n'] ts) = joinWith ['\n'] us := by
  induction ts with
  | nil => exact ⟨[], List.nil_suffix, rfl⟩
  | cons t ts ih =>
    cases t with
    | cons x t =>
      refine ⟨(x :: t) :: ts, List.suffix_rfl, trimStart_eq_self fun y hy => ?_⟩
      have hx := head?_of_trimmed (h _ List.mem_cons_self)
      rw [← head?_joinWith_cons (by simp) ['\n'] ts, hy] at hx
      exact hx
    | nil =>
      obtain ⟨us, hus, hjoin⟩ := ih fun t ht => h t (List.mem_cons_of_mem _ ht)
      refine ⟨us, hus.trans (List.suffix_cons ..), ?_⟩
      cases ts with
      | nil => exact hjoin
      | cons u ts =>
        rw [← hjoin]
        exact trimStart_cons_of_blank (by decide) _

/-- Of trimmed lines, only empty ones are taken off the ends. -/
theorem exists_trim_joinWith (h : ∀ t ∈ ts, trim t = t) :
    ∃ us, us <:+: ts ∧ trim (joinWith ['\n'] ts) = joinWith ['\n'] us := by
  obtain ⟨us, hus, hstart⟩ := exists_trimStart_joinWith h
  -- The end of a text is the start of the reversed text.
  have hrev : ∀ t ∈ (us.map List.reverse).reverse, trim t = t := by
    intro t ht
    rw [List.mem_reverse, List.mem_map] at ht
    obtain ⟨u, hu, rfl⟩ := ht
    exact trimmed_reverse (h u (hus.mem hu))
  obtain ⟨vs, hvs, hend⟩ := exists_trimStart_joinWith hrev
  refine ⟨(vs.map List.reverse).reverse, ?_, ?_⟩
  · have hprefix : (vs.map List.reverse).reverse <+: us := by
      have hmap : vs.map List.reverse <:+ us.reverse := by
        simpa using hvs.map List.reverse
      simpa using List.reverse_prefix.2 hmap
    exact hprefix.isInfix.trans hus.isInfix
  · have hjoin : (joinWith ['\n'] us).reverse = joinWith ['\n'] (us.map List.reverse).reverse :=
      reverse_joinWith _ us
    rw [trim, hstart]
    show (trimStart (joinWith ['\n'] us).reverse).reverse = _
    rw [hjoin, hend]
    exact reverse_joinWith _ vs

/-! ## Words -/

theorem words_append_blank (hx : isBlank x) (s t : Text) :
    words (s ++ x :: t) = words s ++ words t := by
  rw [words, splitWhen_append_cons hx, List.filter_append]
  rfl

theorem words_eq_singleton (h : HasNoBlank t) (hne : t ≠ []) : words t = [t] := by
  rw [words, splitWhen_eq_singleton h]
  simp [hne]

theorem of_mem_words (h : s ∈ words t) : HasNoBlank s ∧ s ≠ [] := by
  obtain ⟨hpiece, hne⟩ := List.mem_filter.1 h
  exact ⟨of_mem_splitWhen hpiece, by simpa using hne⟩

/-- Joined words are the words of the joined text. -/
theorem words_joinWith (h : ∀ w ∈ ws, HasNoBlank w ∧ w ≠ []) : words (joinWith [' '] ws) = ws := by
  induction ws with
  | nil => rfl
  | cons w ws ih =>
    obtain ⟨⟨hw, hne⟩, hws⟩ := List.forall_mem_cons.1 h
    cases ws with
    | nil => exact words_eq_singleton hw hne
    | cons u ws =>
      rw [joinWith_cons_cons, List.append_assoc, List.singleton_append,
        words_append_blank (by decide), words_eq_singleton hw hne, ih hws, List.singleton_append]

end Bookbinder
