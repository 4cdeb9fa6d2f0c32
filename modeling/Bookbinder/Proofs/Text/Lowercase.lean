import Bookbinder.Text.Lowercase

/-!
# Lower case

Lower case leaves its own results alone (`isLower_of_mem_lowercase`, `lowercase_eq_self`): the runs of
`lowerRuns` move no code point to one that a run covers, which is checked on sets of code points that
are held as the bits of numbers (`members_disjoint_images`). And the lower case of a letter depends on
its neighbours only up to the next dash, since a dash is neither cased nor looked through by casing, so
the texts around a dash may be put in lower case apart (`lowercase_append_dash`).
-/

namespace Bookbinder

/-! ## Sets of code points -/

/-- The numbers that `bit` gives for the members of a list, one laid over the other. -/
def overlay {α : Type} (bit : α → Nat) (as : List α) : Nat := as.foldr (fun a n => n ||| bit a) 0

theorem testBit_overlay {α : Type} {bit : α → Nat} {as : List α} {n : Nat} :
    (overlay bit as).testBit n ↔ ∃ a ∈ as, (bit a).testBit n := by
  induction as with
  | nil => simp [overlay]
  | cons a as ih =>
    have hcons : overlay bit (a :: as) = overlay bit as ||| bit a := rfl
    rw [hcons, Nat.testBit_or, Bool.or_eq_true, ih]
    simp only [List.mem_cons, exists_eq_or_imp]
    exact Or.comm

/-- The numbers in some lists as the bits of one number. -/
def bitSet (lists : List (List Nat)) : Nat := overlay (overlay (1 <<< ·)) lists

theorem testBit_bitSet {lists : List (List Nat)} {n : Nat} :
    (bitSet lists).testBit n ↔ ∃ ns ∈ lists, n ∈ ns := by
  simp only [bitSet, testBit_overlay, Nat.one_shiftLeft, Nat.testBit_two_pow, decide_eq_true_eq,
    exists_eq_right]

theorem not_mem_of_bitSet {lists lists' : List (List Nat)}
    (h : bitSet lists &&& bitSet lists' = 0) {n : Nat} {ns ns' : List Nat} (hns : ns ∈ lists)
    (hn : n ∈ ns) (hns' : ns' ∈ lists') : n ∉ ns' := by
  intro hn'
  have hbit : (bitSet lists &&& bitSet lists').testBit n := by
    rw [Nat.testBit_and, Bool.and_eq_true]
    exact ⟨testBit_bitSet.2 ⟨ns, hns, hn⟩, testBit_bitSet.2 ⟨ns', hns', hn'⟩⟩
  rw [h, Nat.zero_testBit] at hbit
  exact Bool.false_ne_true hbit

/-! ## Letters that are in lower case -/

namespace LowerRun

/-- The code points that the run covers. -/
def members (r : LowerRun) : List Nat :=
  List.range' r.first ((r.last - r.first) / r.stride + 1) r.stride

/-- The code point that the run moves `n` to. -/
def image (r : LowerRun) (n : Nat) : Nat := (n + r.shift).toNat

theorem mem_members {r : LowerRun} {n : Nat} (h : r.covers n) : n ∈ r.members := by
  simp only [covers, Bool.and_eq_true, decide_eq_true_eq, beq_iff_eq] at h
  obtain ⟨⟨hfirst, hlast⟩, hstride⟩ := h
  rw [members, List.mem_range']
  refine ⟨(n - r.first) / r.stride, ?_, ?_⟩
  · apply Nat.lt_succ_of_le
    exact Nat.div_le_div_right (by omega)
  · rw [Nat.mul_div_cancel' (Nat.dvd_of_mod_eq_zero hstride)]
    omega

end LowerRun

/-- The place of `İ`, whose lower case is not a single letter. -/
def dottedRun : LowerRun := ⟨0x130, 0x130, 1, 0⟩

/-- The runs move no code point to one that they cover. -/
theorem members_disjoint_images :
    bitSet ((dottedRun :: lowerRuns).map LowerRun.members) &&&
      bitSet (lowerRuns.map fun r => r.members.map r.image) = 0 := by
  decide +kernel

theorem not_covers_image {r s : LowerRun} (hr : r ∈ lowerRuns) (hs : s ∈ dottedRun :: lowerRuns)
    {n : Nat} (hn : r.covers n) : s.covers (r.image n) = false := by
  rw [← Bool.not_eq_true]
  intro hcovers
  exact not_mem_of_bitSet members_disjoint_images (List.mem_map_of_mem hs)
    (LowerRun.mem_members hcovers) (List.mem_map_of_mem hr)
    (List.mem_map_of_mem (LowerRun.mem_members hn))

/-- Lower case leaves the letter as it is, and it is not the one with two letters for a lower case. -/
def IsLower (c : Char) : Prop := lowerChar c = c ∧ c ≠ 'İ'

/-- A letter outside of the runs is in lower case. -/
theorem isLower_of_not_covers {c : Char}
    (h : (dottedRun :: lowerRuns).all (!·.covers c.toNat)) : IsLower c := by
  replace h : ∀ s ∈ dottedRun :: lowerRuns, s.covers c.toNat = false := by
    simpa only [List.all_eq_true, Bool.not_eq_true'] using h
  constructor
  · have hnone : lowerRuns.find? (·.covers c.toNat) = none := by
      rw [List.find?_eq_none]
      intro s hs
      rw [h s (List.mem_cons_of_mem _ hs)]
      exact Bool.false_ne_true
    unfold lowerChar
    rw [hnone]
  · rintro rfl
    exact absurd (h dottedRun (List.mem_cons_self ..)) (by decide)

/-- No run covers the letters that `lowercase` writes on its own, the character 0 or the dash. -/
theorem all_not_covers : ['σ', 'ς', 'i', '\u0307', '\x00', '-'].all fun c =>
    (dottedRun :: lowerRuns).all (!·.covers c.toNat) := by
  decide +kernel

theorem isLower_of_mem {c : Char} (h : c ∈ ['σ', 'ς', 'i', '\u0307', '\x00', '-']) : IsLower c :=
  isLower_of_not_covers (List.all_eq_true.1 all_not_covers c h)

theorem isLower_ofNat_image {r : LowerRun} (hr : r ∈ lowerRuns) {n : Nat} (hn : r.covers n) :
    IsLower (Char.ofNat (r.image n)) := by
  unfold Char.ofNat
  by_cases hvalid : (r.image n).isValidChar
  · rw [dif_pos hvalid]
    apply isLower_of_not_covers
    rw [List.all_eq_true]
    intro s hs
    rw [Bool.not_eq_true']
    exact not_covers_image hr hs hn
  · -- A number that is no code point stands for the character 0.
    rw [dif_neg hvalid]
    exact isLower_of_mem (by decide)

/-- The lower case of a letter is in lower case. -/
theorem isLower_lowerChar {c : Char} (hc : c ≠ 'İ') : IsLower (lowerChar c) := by
  cases hf : lowerRuns.find? (·.covers c.toNat) with
  | none =>
    have hself : lowerChar c = c := by
      unfold lowerChar
      rw [hf]
    rw [hself]
    exact ⟨hself, hc⟩
  | some r =>
    have himage : lowerChar c = Char.ofNat (r.image c.toNat) := by
      unfold lowerChar
      rw [hf]
      rfl
    rw [himage]
    apply isLower_ofNat_image (List.mem_of_find?_eq_some hf)
    simpa using List.find?_some hf

theorem isLower_lowerSigma (before after : Text) : IsLower (lowerSigma before after) := by
  unfold lowerSigma
  split <;> exact isLower_of_mem (by decide)

theorem isLower_dotted {c : Char} (h : c ∈ ['i', '\u0307']) : IsLower c := by
  apply isLower_of_mem
  simp only [List.mem_cons, List.not_mem_nil, or_false] at h ⊢
  rcases h with rfl | rfl <;> simp

/-! ## Texts in lower case -/

theorem isLower_of_mem_lowercaseAfter {before t : Text} {c : Char} (h : c ∈ lowercaseAfter before t) :
    IsLower c := by
  induction t generalizing before with
  | nil => simp [lowercaseAfter] at h
  | cons x t ih =>
    rw [lowercaseAfter, List.mem_append] at h
    rcases h with h | h
    · split at h
      · rw [List.mem_singleton.1 h]
        exact isLower_lowerSigma before t
      · split at h
        · exact isLower_dotted h
        · rw [List.mem_singleton.1 h]
          exact isLower_lowerChar ‹_›
    · exact ih h

theorem isLower_of_mem_lowercase {t : Text} {c : Char} (h : c ∈ lowercase t) : IsLower c :=
  isLower_of_mem_lowercaseAfter h

theorem IsLower.ne_sigma {c : Char} (h : IsLower c) : c ≠ 'Σ' := by
  rintro rfl
  have hsigma : lowerChar 'Σ' = 'σ' := by rfl
  exact absurd (hsigma.symm.trans h.1) (by decide)

theorem lowercaseAfter_cons {c : Char} (hc : IsLower c) (before t : Text) :
    lowercaseAfter before (c :: t) = c :: lowercaseAfter (c :: before) t := by
  rw [lowercaseAfter, if_neg hc.ne_sigma, if_neg hc.2, hc.1, List.singleton_append]

theorem lowercaseAfter_eq_self {t : Text} (h : ∀ c ∈ t, IsLower c) (before : Text) :
    lowercaseAfter before t = t := by
  induction t generalizing before with
  | nil => rfl
  | cons c t ih =>
    rw [lowercaseAfter_cons (h c (List.mem_cons_self ..)),
      ih fun x hx => h x (List.mem_cons_of_mem _ hx)]

/-- A text in lower case stays as it is. -/
theorem lowercase_eq_self {t : Text} (h : ∀ c ∈ t, IsLower c) : lowercase t = t :=
  lowercaseAfter_eq_self h []

/-! ## Lower case around a dash -/

theorem isLower_dash : IsLower '-' := isLower_of_mem (by decide)

theorem isCaseIgnorable_dash : isCaseIgnorable '-' = false := by decide +kernel

theorem isCased_dash : isCased '-' = false := by rfl

/-- A dash hides what stands behind it. -/
theorem meetsCased_append_dash (s t : Text) : meetsCased (s ++ '-' :: t) = meetsCased s := by
  induction s with
  | nil => simp [meetsCased, isCaseIgnorable_dash, isCased_dash]
  | cons c s ih =>
    unfold meetsCased at ih ⊢
    by_cases hc : isCaseIgnorable c
    · rwa [List.cons_append, List.dropWhile_cons_of_pos hc, List.dropWhile_cons_of_pos hc]
    · rw [List.cons_append, List.dropWhile_cons_of_neg hc, List.dropWhile_cons_of_neg hc]

theorem lowercaseAfter_append_dash (before above t : Text) :
    lowercaseAfter (before ++ '-' :: above) t = lowercaseAfter before t := by
  induction t generalizing before with
  | nil => rfl
  | cons c t ih =>
    have hrest := ih (c :: before)
    rw [List.cons_append] at hrest
    rw [lowercaseAfter, lowercaseAfter, lowerSigma, lowerSigma, meetsCased_append_dash, hrest]

theorem lowercaseAfter_dash (before s t : Text) :
    lowercaseAfter before (s ++ '-' :: t) = lowercaseAfter before s ++ '-' :: lowercase t := by
  induction s generalizing before with
  | nil =>
    rw [List.nil_append, lowercaseAfter_cons isLower_dash]
    exact congrArg ('-' :: ·) (lowercaseAfter_append_dash [] before t)
  | cons c s ih =>
    rw [List.cons_append, lowercaseAfter, lowercaseAfter, lowerSigma, lowerSigma,
      meetsCased_append_dash, ih, List.append_assoc]

/-- The texts around a dash are put in lower case apart. -/
theorem lowercase_append_dash (s t : Text) :
    lowercase (s ++ '-' :: t) = lowercase s ++ '-' :: lowercase t :=
  lowercaseAfter_dash [] s t

end Bookbinder
