import Bookbinder.Book.Page
import Bookbinder.Proofs.Slug
import Bookbinder.Proofs.Text.Lowercase

/-!
# The form of slugs

The slug of a text is a sequence of runs of letters and numerals with single dashes between them
(`IsDashedRuns`). The runs of such a sequence are got back by cutting it again (`runs_joinWith`), and
they are in lower case already, so a slug is its own slug. A dash between two texts keeps their runs
apart, also while they are put in lower case, so their slugs are joined (`slugify_normal_form`).
-/

namespace Bookbinder

/-! ## Runs -/

/-- The runs of letters and numerals of a text. -/
def runs (t : Text) : List Text := (splitWhen (!isAlphanumeric ·) t).filter (!·.isEmpty)

theorem slugify_eq (t : Text) : slugify t = joinWith ['-'] (runs (lowercase t)) := rfl

/-- A non-empty text of letters and numerals. -/
def IsRun (r : Text) : Prop := r ≠ [] ∧ ∀ x ∈ r, isAlphanumeric x

theorem isRun_of_mem_runs {t r : Text} (h : r ∈ runs t) : IsRun r := by
  obtain ⟨hsplit, hne⟩ := List.mem_filter.1 h
  refine ⟨by simpa using hne, fun x hx => ?_⟩
  simpa using of_mem_splitWhen hsplit x hx

theorem runs_append_dash (s t : Text) : runs (s ++ '-' :: t) = runs s ++ runs t := by
  unfold runs
  rw [splitWhen_append_cons (by simp [isAlphanumeric_dash]), List.filter_append]

theorem IsRun.runs_eq {r : Text} (h : IsRun r) : runs r = [r] := by
  unfold runs
  rw [splitWhen_eq_singleton fun x hx => by simp [h.2 x hx]]
  simp [h.1]

/-- Runs with dashes between them are got back by cutting. -/
theorem runs_joinWith {rs : List Text} (h : ∀ r ∈ rs, IsRun r) : runs (joinWith ['-'] rs) = rs := by
  induction rs with
  | nil => rfl
  | cons r rs ih =>
    have hr := h r (List.mem_cons_self ..)
    cases rs with
    | nil => exact hr.runs_eq
    | cons r' rs =>
      rw [joinWith_cons_cons, List.append_assoc, List.singleton_append, runs_append_dash, hr.runs_eq,
        ih fun u hu => h u (List.mem_cons_of_mem _ hu), List.singleton_append]

/-- The runs hold all letters and numerals, in order. -/
theorem flatten_runs (t : Text) : (runs t).flatten = t.filter isAlphanumeric := by
  induction t with
  | nil => rfl
  | cons x t ih =>
    unfold runs at ih ⊢
    cases hx : isAlphanumeric x with
    | false =>
      rw [splitWhen_cons_of_pos (by simp [hx]), List.filter_cons_of_neg (by simp),
        List.filter_cons_of_neg (by simp [hx]), ih]
    | true =>
      obtain ⟨piece, pieces, ht⟩ :=
        List.exists_cons_of_ne_nil (splitWhen_ne_nil (!isAlphanumeric ·) t)
      rw [splitWhen_cons_of_neg (by simp [hx]) ht, List.filter_cons_of_pos (by simp),
        List.filter_cons_of_pos hx, ← ih, ht]
      cases piece with
      | nil => simp
      | cons y piece => simp

theorem mem_of_mem_runs {t r : Text} {x : Char} (hr : r ∈ runs t) (hx : x ∈ r) : x ∈ t := by
  have hmem : x ∈ (runs t).flatten := List.mem_flatten.2 ⟨r, hr, hx⟩
  rw [flatten_runs] at hmem
  exact (List.mem_filter.1 hmem).1

theorem runs_eq_nil_iff {t : Text} : runs t = [] ↔ t.any isAlphanumeric = false := by
  constructor
  · intro h
    have hnone := flatten_runs t
    rw [h, List.flatten_nil, eq_comm, List.filter_eq_nil_iff] at hnone
    simpa using hnone
  · intro h
    rw [List.eq_nil_iff_forall_not_mem]
    intro r hr
    obtain ⟨hne, hall⟩ := isRun_of_mem_runs hr
    obtain ⟨x, hx⟩ := List.exists_mem_of_ne_nil r hne
    rw [List.any_eq_false] at h
    exact h x (mem_of_mem_runs hr hx) (hall x hx)

theorem joinWith_eq_nil_iff {rs : List Text} (h : ∀ r ∈ rs, IsRun r) :
    joinWith ['-'] rs = [] ↔ rs = [] := by
  constructor
  · intro hnil
    rw [← runs_joinWith h, hnil]
    rfl
  · rintro rfl
    rfl

/-- Two sequences of runs are joined by a dash, unless one is empty. -/
theorem joinWith_append_runs {rs ss : List Text} (hr : ∀ r ∈ rs, IsRun r) (hs : ∀ r ∈ ss, IsRun r) :
    joinWith ['-'] (rs ++ ss) =
      joinWith ['-'] ([joinWith ['-'] rs, joinWith ['-'] ss].filter (!·.isEmpty)) := by
  by_cases hrs : rs = []
  · by_cases hss : ss = []
    · rw [hrs, hss]
      rfl
    · have hne := mt (joinWith_eq_nil_iff hs).1 hss
      simp [hrs, hne, joinWith]
  · have hne := mt (joinWith_eq_nil_iff hr).1 hrs
    by_cases hss : ss = []
    · simp [hss, hne, joinWith]
    · have hne' := mt (joinWith_eq_nil_iff hs).1 hss
      simp [joinWith_append _ hrs hss, hne, hne', joinWith]

/-! ## Slugs -/

theorem slugify_eq_nil_iff {t : Text} : slugify t = [] ↔ runs (lowercase t) = [] :=
  joinWith_eq_nil_iff fun _ => isRun_of_mem_runs

/-- Non-empty runs of letters and numerals with single dashes between them. -/
inductive IsDashedRuns : Text → Prop
  | run {r : Text} (hr : IsRun r) : IsDashedRuns r
  | dash {r t : Text} (hr : IsRun r) (ht : IsDashedRuns t) : IsDashedRuns (r ++ '-' :: t)

theorem isDashedRuns_joinWith {r : Text} {rs : List Text} (h : ∀ u ∈ r :: rs, IsRun u) :
    IsDashedRuns (joinWith ['-'] (r :: rs)) := by
  induction rs generalizing r with
  | nil => exact .run (h r (List.mem_cons_self ..))
  | cons r' rs ih =>
    rw [joinWith_cons_cons, List.append_assoc, List.singleton_append]
    apply IsDashedRuns.dash (h r (List.mem_cons_self ..))
    exact ih fun u hu => h u (List.mem_cons_of_mem _ hu)

theorem slugify_eq_nil_or (t : Text) : slugify t = [] ∨ IsDashedRuns (slugify t) := by
  rw [slugify_eq_nil_iff, slugify_eq]
  cases hruns : runs (lowercase t) with
  | nil => exact .inl rfl
  | cons r rs =>
    refine .inr (isDashedRuns_joinWith fun u hu => ?_)
    rw [← hruns] at hu
    exact isRun_of_mem_runs hu

theorem IsRun.dash_not_mem {r : Text} (h : IsRun r) : '-' ∉ r := by
  intro hmem
  have hdash := h.2 '-' hmem
  rw [isAlphanumeric_dash] at hdash
  exact Bool.false_ne_true hdash

theorem IsDashedRuns.ends {t : Text} (h : IsDashedRuns t) :
    t ≠ [] ∧ t.head? ≠ some '-' ∧ t.getLast? ≠ some '-' := by
  induction h with
  | run hr =>
    exact ⟨hr.1, fun hhead => hr.dash_not_mem (List.mem_of_head? hhead),
      fun hlast => hr.dash_not_mem (List.mem_of_getLast? hlast)⟩
  | @dash r t hr ht ih =>
    refine ⟨by simp, ?_, ?_⟩
    · obtain ⟨x, r, rfl⟩ := List.exists_cons_of_ne_nil hr.1
      exact fun hhead => hr.dash_not_mem (List.mem_of_head? hhead)
    · obtain ⟨x, t, rfl⟩ := List.exists_cons_of_ne_nil ih.1
      have hlast : (r ++ '-' :: x :: t).getLast? = (x :: t).getLast? := by
        rw [List.getLast?_append, List.getLast?_cons_cons, List.getLast?_cons, Option.some_or]
      rw [hlast]
      exact ih.2.2

theorem slugify_ends (t : Text) :
    (slugify t).head? ≠ some '-' ∧ (slugify t).getLast? ≠ some '-' := by
  rcases slugify_eq_nil_or t with hnil | h
  · rw [hnil]
    simp
  · exact h.ends.2

/-- A slug is its own slug: its letters are in lower case, and its runs are got back. -/
theorem slugify_slugify (t : Text) : slugify (slugify t) = slugify t := by
  have hlower : ∀ c ∈ slugify t, IsLower c := by
    intro c hc
    rcases of_mem_joinWith hc with hdash | ⟨r, hr, hc⟩
    · rw [List.mem_singleton.1 hdash]
      exact isLower_dash
    · exact isLower_of_mem_lowercase (mem_of_mem_runs hr hc)
  rw [slugify_eq (slugify t), lowercase_eq_self hlower]
  exact congrArg (joinWith ['-']) (runs_joinWith fun _ => isRun_of_mem_runs)

/-- The slugs of two texts with a dash between them are joined, and an empty one is left out. -/
theorem slugify_append_dash (s t : Text) :
    slugify (s ++ '-' :: t) = joinWith ['-'] ([slugify s, slugify t].filter (!·.isEmpty)) := by
  rw [slugify_eq, lowercase_append_dash, runs_append_dash]
  exact joinWith_append_runs (fun _ => isRun_of_mem_runs) fun _ => isRun_of_mem_runs

theorem slugify_kindText (k : Kind) : slugify k.text = k.text := by
  cases k <;> rfl

/-- The anchor of a construct starts with its kind and goes on with the slug of its name. -/
theorem Page.anchorBase_eq (c : Construct) :
    anchorBase c =
      if slugify (c.name?.getD anonymous) = [] then c.kind.text
      else c.kind.text ++ '-' :: slugify (c.name?.getD anonymous) := by
  have hkind : c.kind.text ≠ [] := by
    cases c.kind <;> decide
  unfold anchorBase
  rw [slugify_append_dash, slugify_kindText]
  by_cases hname : slugify (c.name?.getD anonymous) = []
  · rw [if_pos hname]
    simp [hname, hkind, joinWith]
  · rw [if_neg hname]
    simp [hname, hkind, joinWith]

/-- The slug of a text is empty or made of runs of letters and numerals with single dashes between
them, and is its own slug. It is empty only for a text whose lower case has no letter and no numeral.
Texts with a dash between them have their slugs joined, and so the anchor of a construct is its kind,
or its kind and the slug of its name. -/
theorem slugify_normal_form :
    (∀ t, (slugify t = [] ∨ IsDashedRuns (slugify t)) ∧
      (slugify t).head? ≠ some '-' ∧ (slugify t).getLast? ≠ some '-' ∧
      (slugify t = [] ↔ (lowercase t).any isAlphanumeric = false) ∧
      slugify (slugify t) = slugify t) ∧
    (∀ s t, slugify (s ++ '-' :: t) = joinWith ['-'] ([slugify s, slugify t].filter (!·.isEmpty))) ∧
    ∀ c : Construct, Page.anchorBase c =
      if slugify (c.name?.getD Page.anonymous) = [] then c.kind.text
      else c.kind.text ++ '-' :: slugify (c.name?.getD Page.anonymous) := by
  refine ⟨fun t => ⟨slugify_eq_nil_or t, (slugify_ends t).1, (slugify_ends t).2, ?_,
    slugify_slugify t⟩, slugify_append_dash, Page.anchorBase_eq⟩
  rw [slugify_eq_nil_iff, runs_eq_nil_iff]

/-- A final sigma, and a letter whose lower case has a mark behind it. -/
example : slugify "ΟΔΟΣ İOS".toList = "οδος-i-os".toList := by
  decide +kernel

end Bookbinder
