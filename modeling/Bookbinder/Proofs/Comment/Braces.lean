import Bookbinder.Proofs.Comment.Filing
import Bookbinder.Proofs.Text.Margins
import Mathlib.Data.List.Induction
import Mathlib.Data.List.Infix

/-!
# The brace that closes a type

A value may start with a type in braces, and braces may be nested in the type. The type ends where for
the first time as many braces are closed as were opened (`IsClosedType`), with balanced braces in it
(`isClosedType_iff`). Reading counts the braces that are open: `closeBrace_read` says what a text does to
the count that settles no braces, and `count_le_of_closeBrace_eq_none` that the brace is found if there is
one.

So `splitType_cases` knows the two results of taking a type off, and `splitType_matching` says which of
them a value has and that nothing but braces and blanks is lost.
-/

namespace Bookbinder

variable {v s t inner rest value : Text} {x : Char} {depth : Nat}

/-! ## Settled braces -/

/-- As many braces are closed as are opened. -/
def IsSettled (p : Text) : Prop := p.count '}' = p.count '{'

/-- The shortest settled start of the text is `inner` in braces, and `rest` stands behind it. -/
structure IsClosedType (v inner rest : Text) : Prop where
  eq : v = '{' :: (inner ++ '}' :: rest)
  settled : IsSettled ('{' :: (inner ++ ['}']))
  shortest : ∀ p, p <+: v → p ≠ [] → IsSettled p → ('{' :: (inner ++ ['}'])).length ≤ p.length

theorem IsClosedType.isPrefix (h : IsClosedType v inner rest) : '{' :: (inner ++ ['}']) <+: v :=
  ⟨rest, by simp [h.eq]⟩

/-- No start of the text is settled but the empty one. -/
def IsUnsettled (v : Text) : Prop := ∀ p, p <+: v → p ≠ [] → ¬IsSettled p

instance (p : Text) : Decidable (IsSettled p) :=
  inferInstanceAs (Decidable (p.count '}' = p.count '{'))

instance (v : Text) : Decidable (IsUnsettled v) :=
  decidable_of_iff (∀ p ∈ v.inits, p ≠ [] → ¬IsSettled p) (by simp only [List.mem_inits, IsUnsettled])

theorem not_isSettled_cons_iff : ¬IsSettled ('{' :: s) ↔ s.count '}' ≠ s.count '{' + 1 := by
  have hclose : ('{' :: s).count '}' = s.count '}' := List.count_cons_of_ne (by decide)
  rw [IsSettled, hclose, List.count_cons_self]

/-- One character changes the number of open braces by at most one, so that it does not get below zero
without being zero before. -/
theorem isUnsettled_cons_iff :
    IsUnsettled ('{' :: t) ↔ ∀ s, s <+: t → s.count '}' ≤ s.count '{' := by
  constructor
  · intro h s hs
    have hunsettled {s : Text} (hs : s <+: t) : s.count '}' ≠ s.count '{' + 1 :=
      not_isSettled_cons_iff.1 (h _ (List.cons_prefix_cons.2 ⟨rfl, hs⟩) (by simp))
    -- From the start of the text on: behind the next character the difference is at most one, and it is
    -- not one.
    induction s using List.reverseRecOn with
    | nil => simp
    | append_singleton s x ih =>
      have hle := ih ((List.prefix_append s [x]).trans hs)
      have hne := hunsettled hs
      have hone : [x].count '}' ≤ 1 := List.count_le_length
      rw [List.count_append, List.count_append] at hne ⊢
      omega
  · intro h p hp hne
    rcases List.prefix_cons_iff.1 hp with rfl | ⟨s, rfl, hs⟩
    · exact absurd rfl hne
    · have hle := h s hs
      rw [not_isSettled_cons_iff]
      omega

/-- What the brace closes is balanced, and only there is this brace the first to settle the text. -/
theorem isClosedType_iff : IsClosedType v inner rest ↔
    v = '{' :: (inner ++ '}' :: rest) ∧ IsBalanced inner := by
  have hsettled : IsSettled ('{' :: (inner ++ ['}'])) ↔ inner.count '{' = inner.count '}' := by
    simp [IsSettled, List.count_append, eq_comm]
  constructor
  · rintro ⟨rfl, hs, hshort⟩
    refine ⟨rfl, isUnsettled_cons_iff.1 fun p hp hne hp' => ?_, hsettled.1 hs⟩
    have hprefix : p <+: '{' :: (inner ++ '}' :: rest) := hp.trans (by simp)
    have hlength := hshort p hprefix hne hp'
    have hle := hp.length_le
    simp at hlength hle
    omega
  · rintro ⟨rfl, hb⟩
    refine ⟨rfl, hsettled.2 hb.closed, fun p hp hne hp' => ?_⟩
    by_contra hlt
    -- A shorter start ends before the brace.
    have hshort : p <+: '{' :: inner := by
      refine List.prefix_of_prefix_length_le hp (by simp) ?_
      simp at hlt ⊢
      omega
    exact isUnsettled_cons_iff.2 hb.opened p hshort hne hp'

/-! ## Reading up to the brace -/

/-- Without the brace, no start of the text closes more than is open. -/
theorem count_le_of_closeBrace_eq_none (h : closeBrace depth t = none) :
    ∀ s, s <+: t → s.count '}' ≤ s.count '{' + depth := by
  induction t generalizing depth with
  | nil =>
    intro s hs
    rw [List.prefix_nil.1 hs]
    simp
  | cons x t ih =>
    intro s hs
    rcases closeBrace_cons depth x t with ⟨-, -, hsome⟩ | ⟨depth', hdepth, hrec⟩
    · rw [hsome] at h
      cases h
    · rw [hrec, Option.map_eq_none_iff] at h
      rcases List.prefix_cons_iff.1 hs with rfl | ⟨s', rfl, hs'⟩
      · simp
      · have hle := ih h s' hs'
        rw [count_cons_eq _ x s', count_cons_eq _ x s']
        omega

/-- Braces that are not settled leave the number of open ones to what follows, and that number is what
is opened less what is closed. -/
theorem closeBrace_read (h : IsUnsettled ('{' :: s)) (t : Text) : ∃ depth,
    ('{' :: s).count '{' = ('{' :: s).count '}' + (depth + 1) ∧
      closeBrace 0 (s ++ t) = (closeBrace depth t).map fun r => (s ++ r.1, r.2) := by
  have hle := isUnsettled_cons_iff.1 h
  have hself := hle s List.prefix_rfl
  refine ⟨s.count '{' - s.count '}', ?_, ?_⟩
  · have hclose : ('{' :: s).count '}' = s.count '}' := List.count_cons_of_ne (by decide)
    rw [List.count_cons_self, hclose]
    omega
  · exact closeBrace_append hle (by omega) t

/-! ## Taking the type off -/

theorem nonEmpty?_trim (t : Text) :
    nonEmpty? (trim t) = if IsBlankRun t then none else some (trim t) := by
  simp only [nonEmpty?, List.isEmpty_iff, trim_eq_nil_iff]

/-- Either a type in braces is taken off, or the value is left whole. -/
theorem splitType_cases (value : Text) :
    (∃ inner rest, IsClosedType (trimStart value) inner rest ∧
      splitType value = (nonEmpty? (trim inner), trimStart rest)) ∨
    ((trimStart value).head? = some '{' → IsUnsettled (trimStart value)) ∧
      splitType value = (none, trimStart value) := by
  unfold splitType
  dsimp only
  split
  · rename_i body hv
    rw [hv]
    cases hc : closeBrace 0 body with
    | none => exact .inr ⟨fun _ => isUnsettled_cons_iff.2 (count_le_of_closeBrace_eq_none hc), rfl⟩
    | some r =>
      obtain ⟨rfl, hb⟩ := closeBrace_zero_eq_some_iff.1 hc
      exact .inl ⟨r.1, r.2, isClosedType_iff.2 ⟨rfl, hb⟩, rfl⟩
  · rename_i hv
    refine .inr ⟨fun h => ?_, rfl⟩
    obtain ⟨body, hbody⟩ := List.head?_eq_some_iff.1 h
    exact absurd hbody (hv body)

/-- A value is its type in braces and the rest, or the rest alone, with blanks between them. -/
theorem exists_parts_splitType (value : Text) : ∃ lead, IsBlankRun lead ∧
    ((splitType value).1 = none ∧ value = lead ++ (splitType value).2 ∨
      ∃ a b gap, IsBlankRun a ∧ IsBlankRun b ∧ IsBlankRun gap ∧
        value = lead ++ '{' :: (a ++ ((splitType value).1.getD [] ++
          (b ++ '}' :: (gap ++ (splitType value).2))))) := by
  obtain ⟨lead, hlead, hvalue⟩ := exists_append_trimStart value
  refine ⟨lead, hlead, ?_⟩
  rcases splitType_cases value with ⟨inner, rest, hclosed, hsplit⟩ | ⟨-, hsplit⟩
  · obtain ⟨a, b, ha, hb, hinner⟩ := exists_margins inner
    obtain ⟨gap, hgap, hrest⟩ := exists_append_trimStart rest
    have htype : (nonEmpty? (trim inner)).getD [] = trim inner := by
      unfold nonEmpty?
      split
      · rename_i hempty
        exact (List.isEmpty_iff.1 hempty).symm
      · rfl
    have htext : inner ++ '}' :: rest = a ++ (trim inner ++ (b ++ '}' :: rest)) := by
      conv_lhs => rw [hinner]
      simp
    refine .inr ⟨a, b, gap, ha, hb, hgap, ?_⟩
    rw [hsplit, htype, ← hrest, ← htext, ← hclosed.eq]
    exact hvalue
  · rw [hsplit]
    exact .inl ⟨rfl, hvalue⟩

/-- A type reaches up to the brace that settles the text for the first time, and without such a brace a
value has no type. The number of open braces is never below zero: before the braces are settled it is one
more than a natural number, which is what reading goes on with. Nothing but the braces of the type and
blanks is left out. -/
theorem splitType_matching (value : Text) :
    let v := trimStart value
    (v.head? = some '{' → (∃ p, p <+: v ∧ p ≠ [] ∧ IsSettled p) → ∃ inner rest,
      IsClosedType v inner rest ∧
        splitType value = (if IsBlankRun inner then none else some (trim inner), trimStart rest)) ∧
    (v.head? ≠ some '{' ∨ IsUnsettled v → splitType value = (none, v)) ∧
    (∀ s t, v = '{' :: (s ++ t) → IsUnsettled ('{' :: s) → ∃ depth,
      ('{' :: s).count '{' = ('{' :: s).count '}' + (depth + 1) ∧
        closeBrace 0 (s ++ t) = (closeBrace depth t).map fun r => (s ++ r.1, r.2)) ∧
    ∃ lead, IsBlankRun lead ∧
      ((splitType value).1 = none ∧ value = lead ++ (splitType value).2 ∨
        ∃ a b gap, IsBlankRun a ∧ IsBlankRun b ∧ IsBlankRun gap ∧
          value = lead ++ '{' :: (a ++ ((splitType value).1.getD [] ++
            (b ++ '}' :: (gap ++ (splitType value).2))))) := by
  intro v
  refine ⟨?_, ?_, fun s t _ h => closeBrace_read h t, exists_parts_splitType value⟩
  · rintro hhead ⟨p, hp, hne, hs⟩
    rcases splitType_cases value with ⟨inner, rest, hclosed, hsplit⟩ | ⟨hnot, -⟩
    · exact ⟨inner, rest, hclosed, by rw [hsplit, nonEmpty?_trim]⟩
    · exact absurd hs (hnot hhead p hp hne)
  · intro h
    rcases splitType_cases value with ⟨inner, rest, hclosed, -⟩ | ⟨-, hsplit⟩
    · exfalso
      rcases h with h | h
      · exact h (List.head?_eq_some_iff.2 ⟨_, hclosed.eq⟩)
      · exact h _ hclosed.isPrefix (by simp) hclosed.settled
    · exact hsplit

/-- Braces in a type. -/
def nestedValue : Text := " {Object<string, {id: number}>} items - the items"

/-- A brace that stays open. -/
def openValue : Text := "\x7ba: \x7bb\x7d items - the items"

theorem splitType_matching_nested :
    (trimStart nestedValue).head? = some '{' ∧
    (∃ p, p <+: trimStart nestedValue ∧ p ≠ [] ∧ IsSettled p) ∧
    (∃ inner rest, IsClosedType (trimStart nestedValue) inner rest ∧ splitType nestedValue =
      (if IsBlankRun inner then none else some (trim inner), trimStart rest)) ∧
    splitType nestedValue =
      (some "Object<string, {id: number}>".toList, "items - the items".toList) ∧
    IsUnsettled (trimStart openValue) ∧ splitType openValue = (none, openValue) := by
  have hhead : (trimStart nestedValue).head? = some '{' := by decide +kernel
  have hsettled : ∃ p, p <+: trimStart nestedValue ∧ p ≠ [] ∧ IsSettled p :=
    ⟨"{Object<string, {id: number}>}", by decide +kernel, by decide, by decide +kernel⟩
  have hopen : IsUnsettled (trimStart openValue) := by decide +kernel
  obtain ⟨hclosed, -, -, -⟩ := splitType_matching nestedValue
  obtain ⟨-, hwhole, -, -⟩ := splitType_matching openValue
  exact ⟨hhead, hsettled, hclosed hhead hsettled, by decide +kernel, hopen, hwhole (.inr hopen)⟩

end Bookbinder
