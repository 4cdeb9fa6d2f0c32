import Bookbinder.Text.Basic

/-!
# Orders on texts

Sorting puts the things of a list into one order, whatever order they came in, if the comparison is a
linear order (`IsOrdering.mergeSort_eq`). The comparison of texts is one (`isOrdering_textLe`), and so
is the lexicographic comparison of lists by any such order (`isOrdering_lexLe`). Sorting by a key keeps
the order of things with equal keys (`IsOrdering.filter_mergeSort`), and that fixes the result
(`IsOrdering.eq_of_ties`).
-/

namespace Bookbinder

/-- A comparison that is a linear order. -/
structure IsOrdering {α : Type} (le : α → α → Bool) : Prop where
  antisymm : ∀ {a b}, le a b → le b a → a = b
  trans : ∀ {a b c}, le a b → le b c → le a c
  total : ∀ a b, le a b ∨ le b a

section Lexicographic

variable {α : Type} [DecidableEq α] {le : α → α → Bool}

theorem lexLe_antisymm (h : IsOrdering le) {s t : List α} (hst : lexLe le s t) (hts : lexLe le t s) :
    s = t := by
  induction s generalizing t with
  | nil =>
    cases t with
    | nil => rfl
    | cons b t => cases hts
  | cons a s ih =>
    cases t with
    | nil => cases hst
    | cons b t =>
      by_cases hab : a = b
      · subst hab
        rw [lexLe, if_pos rfl] at hst hts
        rw [ih hst hts]
      · rw [lexLe, if_neg hab] at hst
        rw [lexLe, if_neg (Ne.symm hab)] at hts
        exact absurd (h.antisymm hst hts) hab

theorem lexLe_trans (h : IsOrdering le) {s t u : List α} (hst : lexLe le s t) (htu : lexLe le t u) :
    lexLe le s u := by
  induction s generalizing t u with
  | nil => rfl
  | cons a s ih =>
    cases t with
    | nil => cases hst
    | cons b t =>
      cases u with
      | nil => cases htu
      | cons c u =>
        rw [lexLe] at hst htu ⊢
        by_cases hab : a = b
        · subst hab
          rw [if_pos rfl] at hst
          by_cases hac : a = c
          · rw [if_pos hac] at htu ⊢
            exact ih hst htu
          · rwa [if_neg hac] at htu ⊢
        · rw [if_neg hab] at hst
          by_cases hbc : b = c
          · subst hbc
            rwa [if_neg hab]
          · rw [if_neg hbc] at htu
            -- The heads would be equal if the order came back to where it started.
            have hac : a ≠ c := by
              rintro rfl
              exact hab (h.antisymm hst htu)
            rw [if_neg hac]
            exact h.trans hst htu

theorem lexLe_total (h : IsOrdering le) (s t : List α) : lexLe le s t ∨ lexLe le t s := by
  induction s generalizing t with
  | nil => exact .inl rfl
  | cons a s ih =>
    cases t with
    | nil => exact .inr rfl
    | cons b t =>
      rw [lexLe, lexLe]
      by_cases hab : a = b
      · rw [if_pos hab, if_pos hab.symm]
        exact ih t
      · rw [if_neg hab, if_neg (Ne.symm hab)]
        exact h.total a b

/-- One list comes before another if it does so by the strict order of their members. -/
theorem lexLe_iff {lt : α → α → Prop} (hle : ∀ a b, le a b ↔ a = b ∨ lt a b) (hlt : ∀ a, ¬lt a a)
    {s t : List α} : lexLe le s t ↔ s = t ∨ List.Lex lt s t := by
  induction s generalizing t with
  | nil => cases t <;> simp [lexLe]
  | cons a s ih =>
    cases t with
    | nil => simp [lexLe]
    | cons b t =>
      by_cases hab : a = b
      · subst hab
        simp [lexLe, ih, List.cons_lex_cons_iff, hlt]
      · simp [lexLe, hab, List.cons_lex_cons_iff, hle]

/-- Lists are in one order if their members are. -/
theorem isOrdering_lexLe (h : IsOrdering le) : IsOrdering (lexLe le) where
  antisymm := lexLe_antisymm h
  trans := lexLe_trans h
  total := lexLe_total h

end Lexicographic

/-- Texts are in one order. -/
theorem isOrdering_textLe : IsOrdering textLe := by
  refine isOrdering_lexLe ⟨fun hab hba => ?_, fun hab hbc => ?_, fun a b => ?_⟩
  · rw [Nat.ble_eq] at hab hba
    exact Char.toNat_inj.1 (Nat.le_antisymm hab hba)
  · rw [Nat.ble_eq] at hab hbc ⊢
    exact Nat.le_trans hab hbc
  · rw [Nat.ble_eq, Nat.ble_eq]
    exact Nat.le_total a.toNat b.toNat

/-- `s` comes before `t` in the order of code points. -/
def TextLt (s t : Text) : Prop := List.Lex (fun a b : Char => a.toNat < b.toNat) s t

theorem textLe_iff {s t : Text} : textLe s t ↔ s = t ∨ TextLt s t := by
  have hlt (a : Char) : ¬a.toNat < a.toNat := Nat.lt_irrefl _
  refine lexLe_iff (fun a b => ?_) hlt
  rw [Nat.ble_eq, Nat.le_iff_lt_or_eq, Char.toNat_inj, Or.comm]

section Sorting

variable {α : Type} {le : α → α → Bool} {l l' : List α}

theorem IsOrdering.trans_key {β : Type} (h : IsOrdering le) (key : β → α) (a b c : β)
    (hab : le (key a) (key b)) (hbc : le (key b) (key c)) : le (key a) (key c) :=
  h.trans hab hbc

theorem IsOrdering.total_key {β : Type} (h : IsOrdering le) (key : β → α) (a b : β) :
    (le (key a) (key b) || le (key b) (key a)) = true := by
  rw [Bool.or_eq_true]
  exact h.total (key a) (key b)

theorem IsOrdering.pairwise_mergeSort (h : IsOrdering le) (l : List α) :
    (l.mergeSort le).Pairwise fun a b => le a b :=
  List.pairwise_mergeSort (h.trans_key id) (h.total_key id) l

/-- There is one way to put things in order. -/
theorem IsOrdering.eq_of_perm (h : IsOrdering le) (hl : l.Pairwise fun a b => le a b)
    (hl' : l'.Pairwise fun a b => le a b) (hp : l.Perm l') : l = l' :=
  hp.eq_of_pairwise (fun _ _ _ _ => h.antisymm) hl hl'

/-- Sorting forgets the order that things come in. -/
theorem IsOrdering.mergeSort_eq (h : IsOrdering le) (hp : l.Perm l') :
    l.mergeSort le = l'.mergeSort le := by
  have hperm : (l.mergeSort le).Perm (l'.mergeSort le) :=
    (List.mergeSort_perm l le).trans (hp.trans (List.mergeSort_perm l' le).symm)
  exact h.eq_of_perm (h.pairwise_mergeSort l) (h.pairwise_mergeSort l') hperm

/-! ## Sorting by a key -/

variable {β : Type} {key : β → α} {ms ms' : List β}

theorem IsOrdering.pairwise_mergeSort_key (h : IsOrdering le) (key : β → α) (ms : List β) :
    (ms.mergeSort fun a b => le (key a) (key b)).Pairwise fun a b => le (key a) (key b) :=
  List.pairwise_mergeSort (h.trans_key key) (h.total_key key) ms

variable [BEq α] [LawfulBEq α]

/-- Things with equal keys keep their order. -/
theorem IsOrdering.filter_mergeSort (h : IsOrdering le) (key : β → α) (ms : List β) (k : α) :
    (ms.mergeSort fun a b => le (key a) (key b)).filter (key · == k) = ms.filter (key · == k) := by
  have hk : ∀ m ∈ ms.filter (key · == k), key m = k := by simp
  have hrefl : le k k := (h.total k k).elim id id
  have hties : (ms.filter (key · == k)).Pairwise fun a b => le (key a) (key b) := by
    apply List.pairwise_of_forall_mem_list
    intro a ha b hb
    rwa [hk a ha, hk b hb]
  have hsub : (ms.filter (key · == k)).Sublist (ms.mergeSort fun a b => le (key a) (key b)) :=
    List.sublist_mergeSort (h.trans_key key) (h.total_key key) hties List.filter_sublist
  have hfilter := hsub.filter (key · == k)
  rw [List.filter_filter] at hfilter
  simp only [Bool.and_self] at hfilter
  symm
  apply hfilter.eq_of_length
  exact ((List.mergeSort_perm ms _).filter _).length_eq.symm

/-- The first key of a sorted list is the least one that occurs. -/
theorem IsOrdering.le_of_ties (h : IsOrdering le) {a b : β}
    (hms : (a :: ms).Pairwise fun a b => le (key a) (key b))
    (hties : (a :: ms).filter (key · == key b) = (b :: ms').filter (key · == key b)) :
    le (key a) (key b) := by
  have hb : b ∈ (a :: ms).filter (key · == key b) := by
    rw [hties]
    simp
  rcases List.mem_cons.1 (List.mem_filter.1 hb).1 with rfl | hb
  · exact (h.total (key b) (key b)).elim id id
  · exact List.rel_of_pairwise_cons hms hb

/-- Sorted lists are equal if the members of every key come in the same order. -/
theorem IsOrdering.eq_of_ties (h : IsOrdering le) (key : β → α)
    (hms : ms.Pairwise fun a b => le (key a) (key b))
    (hms' : ms'.Pairwise fun a b => le (key a) (key b))
    (hties : ∀ k, ms.filter (key · == k) = ms'.filter (key · == k)) : ms = ms' := by
  induction ms generalizing ms' with
  | nil =>
    cases ms' with
    | nil => rfl
    | cons b ms' => simpa using hties (key b)
  | cons a ms ih =>
    cases ms' with
    | nil => simpa using hties (key a)
    | cons b ms' =>
      have hkey : key a = key b :=
        h.antisymm (h.le_of_ties hms (hties (key b))) (h.le_of_ties hms' (hties (key a)).symm)
      have hab : a = b := by
        have hhead := hties (key a)
        rw [List.filter_cons_of_pos (by simp), List.filter_cons_of_pos (by simp [hkey])] at hhead
        exact List.head_eq_of_cons_eq hhead
      subst hab
      rw [ih hms.of_cons hms'.of_cons]
      intro k
      have htail := hties k
      by_cases hk : key a = k <;> simpa [hk] using htail

end Sorting

end Bookbinder
