import Bookbinder.Slug
import Bookbinder.Proofs.Text.Cutting

/-!
# Unique slugs

What a scope hands out. A claimed name is free (`next_not_mem_taken`): among the numbered candidates
there is one more than names in use, and no two of them are equal. So the names of a run of claims
differ from each other and from the names in use before it (`nodup_claimAll`,
`not_mem_taken_of_mem_claimAll`). They are the claimed texts, possibly with a number behind them, and
are made of the same characters (`IsSlug`). The number is the first one that makes the name free
(`IsFirstFree`), so the search for it comes to an end for every claim (`claimAll_first_free`).
-/

namespace Bookbinder

/-! ## Numbers -/

theorem decimal_injective {m n : Nat} (h : decimal m = decimal n) : m = n := by
  have hm : Nat.ofDigitChars 10 (decimal m) 0 = m := Nat.ofDigitChars_ten_toDigits
  rw [h] at hm
  exact hm.symm.trans Nat.ofDigitChars_ten_toDigits

theorem isAlphanumeric_of_isDigit {x : Char} (h : x.isDigit) : isAlphanumeric x := by
  have hx : 48 ≤ x.toNat ∧ x.toNat ≤ 57 := by
    simpa [Char.isDigit, UInt32.le_iff_toNat_le] using h
  refine List.any_eq_true.2 ⟨(0x30, 0x39), List.mem_cons_self .., ?_⟩
  simpa using hx

/-! ## The characters of slugs -/

/-- A non-empty text of letters, numerals and dashes. -/
def IsSlug (t : Text) : Prop := t ≠ [] ∧ ∀ x ∈ t, isAlphanumeric x ∨ x = '-'

instance (t : Text) : Decidable (IsSlug t) :=
  decidable_of_iff (t ≠ [] ∧ t.all fun x => isAlphanumeric x || x == '-') (by simp [IsSlug])

theorem isAlphanumeric_slash : isAlphanumeric '/' = false := by decide +kernel

theorem isAlphanumeric_dot : isAlphanumeric '.' = false := by decide +kernel

theorem IsSlug.not_mem_of_isAlphanumeric {t : Text} (h : IsSlug t) {x : Char}
    (hx : isAlphanumeric x = false) (hd : x ≠ '-') : x ∉ t := by
  intro hm
  rcases h.2 x hm with ha | rfl
  · simp [hx] at ha
  · exact hd rfl

/-- The slug of a text is empty or made of letters, numerals and dashes. -/
theorem isSlug_slugify {t : Text} (h : slugify t ≠ []) : IsSlug (slugify t) := by
  refine ⟨h, fun x hx => ?_⟩
  rcases of_mem_joinWith hx with hx | ⟨piece, hp, hx⟩
  · exact .inr (by simpa using hx)
  · have := of_mem_splitWhen (List.mem_filter.1 hp).1 x hx
    exact .inl (by simpa using this)

theorem IsSlug.numbered {t : Text} (h : IsSlug t) (n : Nat) : IsSlug (SlugSet.numbered t n) := by
  refine ⟨by simp [SlugSet.numbered], fun x hx => ?_⟩
  rcases List.mem_append.1 hx with hx | hx
  · exact h.2 x hx
  · rcases List.mem_cons.1 hx with rfl | hx
    · exact .inr rfl
    · exact .inl (isAlphanumeric_of_isDigit (Nat.isDigit_of_mem_toDigits (by decide) (by decide) hx))

namespace SlugSet

theorem isFree_iff {s : SlugSet} {name : Text} : s.isFree name ↔ name ∉ s.taken := by
  simp [isFree]

theorem numbered_injective {base : Text} {m n : Nat} (h : numbered base m = numbered base n) :
    m = n := by
  simp only [numbered, List.append_cancel_left_eq, List.cons.injEq, true_and] at h
  exact decimal_injective h

/-- The search finds the first free candidate: there are more candidates than names in use. -/
theorem exists_firstNumbered (s : SlugSet) (base : Text) :
    ∃ n, s.firstNumbered base = numbered base n ∧ 2 ≤ n ∧ numbered base n ∉ s.taken ∧
      ∀ k, 2 ≤ k → k < n → numbered base k ∈ s.taken := by
  unfold firstNumbered
  rw [List.find?_map]
  cases hf : (List.range' 2 (s.taken.length + 1)).find? (s.isFree ∘ numbered base) with
  | some n =>
    obtain ⟨hfree, hn, hless⟩ := List.find?_range'_eq_some.1 hf
    refine ⟨n, rfl, (List.mem_range'_1.1 hn).1, isFree_iff.1 hfree, fun k hk hkn => ?_⟩
    simpa [isFree] using hless k hk hkn
  | none =>
    -- All candidates would be names in use.
    exfalso
    have hd : ((List.range' 2 (s.taken.length + 1)).map (numbered base)).Nodup := by
      rw [List.Nodup, List.pairwise_map]
      exact List.Pairwise.imp (fun hne he => hne (numbered_injective he)) List.nodup_range'
    have hs : (List.range' 2 (s.taken.length + 1)).map (numbered base) ⊆ s.taken := by
      intro name hn
      obtain ⟨n, hmem, rfl⟩ := List.mem_map.1 hn
      have := List.find?_eq_none.1 hf n hmem
      rw [Function.comp_apply, isFree_iff] at this
      exact Decidable.not_not.1 this
    have hl := hd.length_le_of_subset hs
    rw [List.length_map, List.length_range'] at hl
    omega

theorem next_not_mem_taken (s : SlugSet) (base : Text) : s.next base ∉ s.taken := by
  unfold next
  split
  · exact isFree_iff.1 ‹_›
  · obtain ⟨n, hn, -, hf, -⟩ := s.exists_firstNumbered base
    rwa [hn]

/-- A claim gets the claimed text or the text with a number. -/
theorem next_eq (s : SlugSet) (base : Text) :
    s.next base = base ∨ ∃ n, s.next base = numbered base n := by
  unfold next
  split
  · exact .inl rfl
  · obtain ⟨n, hn, -⟩ := s.exists_firstNumbered base
    exact .inr ⟨n, hn⟩

/-! ## Runs of claims -/

theorem claimAll_cons (s : SlugSet) (base : Text) (bases : List Text) :
    (s.claimAll (base :: bases)).1 =
      s.next base :: (claimAll ⟨s.next base :: s.taken⟩ bases).1 := rfl

@[simp]
theorem length_claimAll (s : SlugSet) (bases : List Text) :
    (s.claimAll bases).1.length = bases.length := by
  induction bases generalizing s with
  | nil => rfl
  | cons base bases ih => rw [claimAll_cons, List.length_cons, ih, List.length_cons]

theorem not_mem_taken_of_mem_claimAll {s : SlugSet} {bases : List Text} {name : Text}
    (h : name ∈ (s.claimAll bases).1) : name ∉ s.taken := by
  induction bases generalizing s with
  | nil => simp [claimAll] at h
  | cons base bases ih =>
    rw [claimAll_cons] at h
    rcases List.mem_cons.1 h with rfl | h
    · exact s.next_not_mem_taken base
    · exact fun ht => ih h (List.mem_cons_of_mem _ ht)

/-- No name is handed out twice. -/
theorem nodup_claimAll (s : SlugSet) (bases : List Text) : (s.claimAll bases).1.Nodup := by
  induction bases generalizing s with
  | nil => exact List.nodup_nil
  | cons base bases ih =>
    rw [claimAll_cons]
    refine List.nodup_cons.2 ⟨fun h => ?_, ih _⟩
    exact not_mem_taken_of_mem_claimAll h (List.mem_cons_self ..)

theorem isSlug_of_mem_claimAll {s : SlugSet} {bases : List Text} (hb : ∀ base ∈ bases, IsSlug base)
    {name : Text} (h : name ∈ (s.claimAll bases).1) : IsSlug name := by
  induction bases generalizing s with
  | nil => simp [claimAll] at h
  | cons base bases ih =>
    rw [claimAll_cons] at h
    rcases List.mem_cons.1 h with rfl | h
    · have hbase := hb base (by simp)
      rcases s.next_eq base with he | ⟨n, he⟩
      · rwa [he]
      · rw [he]
        exact hbase.numbered n
    · exact ih (fun b hm => hb b (List.mem_cons_of_mem _ hm)) h

/-! ## First free names -/

/-- The search that tries `base-n`, `base-(n + 1)`, … without a limit ends at `base-m`. -/
inductive Search (used : List Text) (base : Text) : Nat → Nat → Prop
  | stop {n : Nat} (hfree : numbered base n ∉ used) : Search used base n n
  | step {n m : Nat} (hused : numbered base n ∈ used) (hrest : Search used base (n + 1) m) :
      Search used base n m

theorem search_of_least {used : List Text} {base : Text} {n m : Nat} (hnm : n ≤ m)
    (hfree : numbered base m ∉ used) (hless : ∀ k, n ≤ k → k < m → numbered base k ∈ used) :
    Search used base n m := by
  obtain ⟨d, rfl⟩ := Nat.exists_eq_add_of_le hnm
  induction d generalizing n with
  | zero => exact .stop hfree
  | succ d ih =>
    apply Search.step (hless n (by omega) (by omega))
    rw [← Nat.add_assoc, Nat.add_right_comm] at hfree hless ⊢
    exact ih (by omega) hfree fun k hk => hless k (by omega)

/-- `name` is `base` if that is free, and otherwise `base` with the least number from 2 on that makes a
free name, where the search for it ends. -/
inductive IsFirstFree (used : List Text) (base : Text) : Text → Prop
  | plain (hfree : base ∉ used) : IsFirstFree used base base
  | numbered {n : Nat} (hused : base ∈ used) (hsearch : Search used base 2 n) (hn : 2 ≤ n)
      (hfree : numbered base n ∉ used)
      (hless : ∀ k, 2 ≤ k → k < n → SlugSet.numbered base k ∈ used) :
      IsFirstFree used base (SlugSet.numbered base n)

theorem isFirstFree_next (s : SlugSet) (base : Text) : IsFirstFree s.taken base (s.next base) := by
  unfold next
  split
  · exact .plain (isFree_iff.1 ‹_›)
  · rename_i hused
    rw [isFree_iff, Decidable.not_not] at hused
    obtain ⟨n, heq, hn, hfree, hless⟩ := s.exists_firstNumbered base
    rw [heq]
    exact .numbered hused (search_of_least hn hfree hless) hn hfree hless

/-- Only the names in use count, not how they are listed. -/
theorem IsFirstFree.congr {used used' : List Text} {base name : Text}
    (h : IsFirstFree used base name) (hused : ∀ x, x ∈ used ↔ x ∈ used') :
    IsFirstFree used' base name := by
  cases h with
  | plain hfree => exact .plain (mt (hused base).2 hfree)
  | numbered hbase hsearch hn hfree hless =>
    have hfree' := mt (hused _).2 hfree
    have hless' := fun k hk hkn => (hused _).1 (hless k hk hkn)
    exact .numbered ((hused base).1 hbase) (search_of_least hn hfree' hless') hn hfree' hless'

/-- Every claim of a run gets the first name that was neither in use before the run nor handed out
earlier in it. -/
theorem isFirstFree_claimAll {s : SlugSet} {bases : List Text} {i : Nat} {base name : Text}
    (hbase : bases[i]? = some base) (hname : (s.claimAll bases).1[i]? = some name) :
    IsFirstFree (s.taken ++ (s.claimAll bases).1.take i) base name := by
  induction bases generalizing s i with
  | nil => simp at hbase
  | cons b bases ih =>
    rw [claimAll_cons] at hname ⊢
    cases i with
    | zero =>
      rw [List.getElem?_cons_zero, Option.some.injEq] at hbase hname
      subst hbase hname
      rw [List.take_zero, List.append_nil]
      exact s.isFirstFree_next b
    | succ i =>
      rw [List.getElem?_cons_succ] at hbase hname
      refine (ih hbase hname).congr fun x => ?_
      simp only [List.mem_append, List.mem_cons, List.take_succ_cons]
      constructor
      · rintro ((rfl | hx) | hx)
        · exact .inr (.inl rfl)
        · exact .inl hx
        · exact .inr (.inr hx)
      · rintro (hx | rfl | hx)
        · exact .inl (.inr hx)
        · exact .inl (.inl rfl)
        · exact .inr hx

/-- A scope with reserved names hands out one name for each claim: the claimed text or the first free
one with a number. The names differ from each other, and none is reserved. -/
theorem claimAll_first_free (reserved bases : List Text) :
    ((SlugSet.mk reserved).claimAll bases).1.length = bases.length ∧
    (∀ i base name, bases[i]? = some base →
      ((SlugSet.mk reserved).claimAll bases).1[i]? = some name →
      IsFirstFree (reserved ++ ((SlugSet.mk reserved).claimAll bases).1.take i) base name) ∧
    ((SlugSet.mk reserved).claimAll bases).1.Nodup ∧
    ∀ name ∈ ((SlugSet.mk reserved).claimAll bases).1, name ∉ reserved :=
  ⟨length_claimAll _ bases, fun _ _ _ => isFirstFree_claimAll, nodup_claimAll _ bases,
    fun _ => not_mem_taken_of_mem_claimAll⟩

/-- Claims that meet names of other bases and a reserved name. -/
def contestedBases : List Text := ["util", "util-2", "util", "index", "util-2"]

theorem claimAll_first_free_contested :
    contestedBases[2]? = some "util".toList ∧
    ((SlugSet.mk ["index"]).claimAll contestedBases).1[2]? = some "util-3".toList ∧
    IsFirstFree (["index".toList] ++ ((SlugSet.mk ["index"]).claimAll contestedBases).1.take 2)
      "util".toList "util-3".toList ∧
    "index-2".toList ∈ ((SlugSet.mk ["index"]).claimAll contestedBases).1 ∧
    "index-2".toList ∉ ["index".toList] := by
  obtain ⟨-, hfirst, -, hreserved⟩ := claimAll_first_free ["index"] contestedBases
  have hname : ((SlugSet.mk ["index"]).claimAll contestedBases).1[2]? = some "util-3".toList := by
    decide
  have hmem : "index-2".toList ∈ ((SlugSet.mk ["index"]).claimAll contestedBases).1 := by decide
  exact ⟨rfl, hname, hfirst 2 _ _ rfl hname, hmem, hreserved _ hmem⟩

example : ((SlugSet.mk ["index"]).claimAll contestedBases).1 =
    ["util".toList, "util-2".toList, "util-3".toList, "index-2".toList, "util-2-2".toList] := by
  decide

end SlugSet

end Bookbinder
