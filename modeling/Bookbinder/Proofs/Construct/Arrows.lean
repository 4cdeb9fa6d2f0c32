import Bookbinder.Proofs.Construct.Functions
import Bookbinder.Proofs.Pattern.Search
import Bookbinder.Proofs.Text.Balance

/-!
# Arrows that stand in for a name

When arrows give names, the name of a function that is not exported is found by two searches: for the
leftmost opening parenthesis with an arrow's closing one somewhere behind it, and from there for the
nearest such closing one (`FirstArrowList`). What stands between the two is the name
(`functionName?_arrow`).

The two parentheses need not be partners. In a balanced text the name is one list of parameters, with
balanced parentheses, exactly when the partner of the first parenthesis has an arrow behind it and no
closing parenthesis before it has one (`functionName?_balanced_iff`); a callback in the body of a function
is enough to break this (`functionName?_unbalanced`).
-/

namespace Bookbinder

open Pattern

variable {t n before params after : Text}

/-! ## Lists with an arrow behind them -/

/-- Blanks, perhaps none, and an arrow come first. -/
def StartsArrow (t : Text) : Prop := ∃ w rest, IsBlankRun w ∧ t = w ++ ("=>".toList ++ rest)

/-- An opening parenthesis, `params`, a closing one and an arrow stand in the text. -/
structure ArrowList (t before params after : Text) : Prop where
  eq : t = before ++ '(' :: (params ++ ')' :: after)
  arrow : StartsArrow after

/-- The opening parenthesis is the leftmost with an arrow's closing one behind it, and that one is the
nearest to it. -/
structure FirstArrowList (t before params after : Text) : Prop extends
    ArrowList t before params after where
  leftmost : ∀ b p a, ArrowList t b p a → before.length ≤ b.length
  nearest : ∀ p a, ArrowList t before p a → params.length ≤ p.length

/-- Of two places of a character, the first and what stands between them. -/
theorem exists_between_of_eq {a b c d : Text} {x y : Char} (h : a ++ x :: b = c ++ y :: d)
    (hlt : a.length < c.length) : ∃ m, c = a ++ x :: m ∧ b = m ++ y :: d := by
  rcases List.append_eq_append_iff.1 h with ⟨m, rfl, hm⟩ | ⟨m, rfl, -⟩
  · cases m with
    | nil => simp at hlt
    | cons z m =>
      obtain ⟨rfl, hb⟩ := List.cons.inj hm
      exact ⟨m, rfl, hb⟩
  · rw [List.length_append] at hlt
    omega

namespace FirstArrowList

/-- No parenthesis is opened before the first list. -/
theorem open_not_mem (h : FirstArrowList t before params after) : '(' ∉ before := by
  intro hmem
  obtain ⟨a, b, rfl⟩ := List.append_of_mem hmem
  have hlist : ArrowList t a (b ++ '(' :: params) after := ⟨by rw [h.eq]; simp, h.arrow⟩
  have hle := h.leftmost _ _ _ hlist
  rw [List.length_append, List.length_cons] at hle
  omega

/-- No parenthesis in the first list has an arrow behind it. -/
theorem not_startsArrow (h : FirstArrowList t before params after) {a b : Text}
    (hp : params = a ++ ')' :: b) : ¬ StartsArrow (b ++ ')' :: after) := by
  intro harrow
  have hlist : ArrowList t before a (b ++ ')' :: after) := ⟨by rw [h.eq, hp]; simp, harrow⟩
  have hle := h.nearest _ _ hlist
  rw [hp, List.length_append, List.length_cons] at hle
  omega

theorem unique (h : FirstArrowList t before params after) {b p a : Text}
    (h' : FirstArrowList t b p a) : params = p := by
  have hb := Nat.le_antisymm (h.leftmost _ _ _ h'.toArrowList) (h'.leftmost _ _ _ h.toArrowList)
  obtain ⟨rfl, heq⟩ := List.append_inj (h.eq.symm.trans h'.eq) hb
  have hp := Nat.le_antisymm (h.nearest _ _ h'.toArrowList) (h'.nearest _ _ h.toArrowList)
  exact (List.append_inj (List.cons.inj heq).2 hp).1

end FirstArrowList

/-! ## The search for an arrow -/

namespace Forms

/-- A list with an arrow, whether or not the list is captured. -/
theorem hasLanguage_arrowParams : arrowParams.HasLanguage fun s =>
    ∃ params w, IsBlankRun w ∧ s = '(' :: (params ++ ')' :: (w ++ "=>".toList)) := by
  have hback : arrowParams.Within (shortList ++ arrow) :=
    (((Within.refl _).append (capture_within _)).append (Within.refl _)).append (Within.refl _)
  intro b s a
  rw [← hasLanguage_shortList_arrow b s a]
  constructor
  · rintro ⟨c, hm⟩
    exact hback hm
  · rintro ⟨c, hm⟩
    exact shortList_arrow_within hm

theorem hasLanguage_closing : (")" ++ arrow : Pattern).HasLanguage fun s =>
    ∃ w, IsBlankRun w ∧ s = ')' :: (w ++ "=>".toList) := by
  have harrow := hasLanguage_gap.append (hasLanguage_literal "=>".toList)
  refine ((hasLanguage_literal ")".toList).append harrow).congr fun s => ?_
  constructor
  · rintro ⟨_, _, rfl, rfl, w, _, rfl, hw, rfl⟩
    exact ⟨w, hw, rfl⟩
  · rintro ⟨w, hw, rfl⟩
    exact ⟨_, _, rfl, rfl, w, _, rfl, hw, rfl⟩

theorem matchAt?_closing_iff {b : Option Char} : ((")" ++ arrow : Pattern).matchAt? ⟨b, t⟩).isSome ↔
    ∃ after, t = ')' :: after ∧ StartsArrow after := by
  rw [hasLanguage_closing.matchAt?_isSome_iff]
  constructor
  · rintro ⟨_, rest, rfl, w, hw, rfl⟩
    exact ⟨w ++ ("=>".toList ++ rest), by simp, w, rest, hw, rfl⟩
  · rintro ⟨_, rfl, w, rest, hw, rfl⟩
    exact ⟨_, rest, by simp, w, hw, rfl⟩

theorem matchAt?_arrowParams_iff {b : Option Char} : (arrowParams.matchAt? ⟨b, t⟩).isSome ↔
    ∃ params after, ArrowList t [] params after := by
  rw [hasLanguage_arrowParams.matchAt?_isSome_iff]
  constructor
  · rintro ⟨_, rest, rfl, params, w, hw, rfl⟩
    exact ⟨params, w ++ ("=>".toList ++ rest), by simp, w, rest, hw, rfl⟩
  · rintro ⟨params, _, rfl, w, rest, hw, rfl⟩
    exact ⟨_, rest, by simp, params, w, hw, rfl⟩

theorem occursIn_arrowParams_iff : arrowParams.occursIn t ↔
    ∃ before params after, ArrowList t before params after := by
  rw [hasLanguage_arrowParams.occursIn_iff]
  constructor
  · rintro ⟨before, _, rest, rfl, params, w, hw, rfl⟩
    exact ⟨before, params, w ++ ("=>".toList ++ rest), by simp, w, rest, hw, rfl⟩
  · rintro ⟨before, params, _, rfl, w, rest, hw, rfl⟩
    exact ⟨before, _, rest, by simp, params, w, hw, rfl⟩

/-- At a place, the captured list ends at the nearest parenthesis that fits. -/
theorem nearest_of_matchAt? {b : Option Char} (h : arrowParams.matchAt? ⟨b, t⟩ = some n) :
    ∃ after, ArrowList t [] n after ∧ ∀ p a, ArrowList t [] p a → n.length ≤ p.length := by
  have hassoc : arrowParams.matchAt? ⟨b, t⟩ =
      (literal "(".toList ++ (capture inside ++ (")" ++ arrow))).matchAt? ⟨b, t⟩ := rfl
  rw [hassoc, matchAt?_literal_append] at h
  obtain ⟨u, rfl, h⟩ := h
  obtain ⟨_, rfl, -, hclose, hfails⟩ :=
    (matchAt?_reluctant_iff (isPlain_append.2 ⟨isPlain_literal _, isPlain_arrow⟩)).1 h
  obtain ⟨after, rfl, harrow⟩ := matchAt?_closing_iff.1 hclose
  refine ⟨after, ⟨rfl, harrow⟩, fun p a hlist => ?_⟩
  by_contra hlt
  obtain ⟨m, hm, ha⟩ := exists_between_of_eq (List.cons.inj hlist.eq).2.symm (Nat.lt_of_not_le hlt)
  have hnone := hfails p (')' :: m) hm (by simp)
  have hsome := (matchAt?_closing_iff (b := charBefore (charBefore b "(".toList) p)).2
    ⟨a, rfl, hlist.arrow⟩
  rw [ha] at hsome
  rw [← List.cons_append, hnone] at hsome
  cases hsome

/-- The search for an arrow's list finds the first one. -/
theorem exists_firstArrowList (h : arrowParams.find? t = some n) :
    ∃ before after, FirstArrowList t before n after := by
  obtain ⟨before, u, rfl, hn, hfails⟩ := find?_eq_some_iff.1 h
  obtain ⟨after, ⟨rfl, harrow⟩, hnear⟩ := nearest_of_matchAt? hn
  refine ⟨before, after, ⟨rfl, harrow⟩, fun b p a hlist => ?_, fun p a hlist => ?_⟩
  · by_contra hlt
    obtain ⟨m, rfl, hm⟩ := exists_between_of_eq hlist.eq.symm (Nat.lt_of_not_le hlt)
    have hnone := hfails b ('(' :: m) rfl (by simp)
    have hsome := (matchAt?_arrowParams_iff (b := charBefore none b)).2 ⟨p, a, rfl, hlist.arrow⟩
    rw [List.nil_append, hm] at hsome
    rw [List.nil_append, List.cons_append] at hnone
    rw [hnone] at hsome
    cases hsome
  · exact hnear p a ⟨List.append_cancel_left hlist.eq, hlist.arrow⟩

end Forms

/-! ## Names -/

theorem nonEmpty?_eq (t : Text) : nonEmpty? t = if t = [] then none else some t := by
  cases t with
  | nil => rfl
  | cons x t => rfl

theorem exportedName?_eq_none (h : Forms.exportName.occursIn t = false) : exportedName? t = none := by
  have hnone : Forms.exportName.find? t = none := Option.not_isSome_iff_eq_none.1 (Bool.eq_false_iff.1 h)
  rw [exportedName?, hnone, Option.bind_none]

/-- Where no name is exported, the list of the first arrow is the name. -/
theorem functionName?_of_firstArrowList (hx : Forms.exportName.occursIn t = false)
    (h : FirstArrowList t before params after) :
    functionName? true t = if params = [] then none else some params := by
  have harrow := Forms.occursIn_arrowParams_iff.2 ⟨before, params, after, h.toArrowList⟩
  obtain ⟨n, hn⟩ := Option.isSome_iff_exists.1 harrow
  obtain ⟨b, a, hfirst⟩ := Forms.exists_firstArrowList hn
  -- The form of an arrow is a naming form too, so the first search of all does not come out empty.
  have hname : Forms.functionName.occursIn t :=
    occursIn_anyOf.2 ⟨_, List.mem_of_getElem? (i := 2) rfl, harrow⟩
  obtain ⟨declared, hd⟩ := Option.isSome_iff_exists.1 hname
  rw [functionName?, hd, exportedName?_eq_none hx, if_pos rfl, hn, h.unique hfirst]
  exact nonEmpty?_eq n

theorem functionName?_of_no_arrow (h : ¬ Forms.arrowParams.occursIn t) :
    functionName? true t = functionName? false t := by
  rw [functionName?, functionName?, if_pos rfl, Option.not_isSome_iff_eq_none.1 h]
  rfl

/-- Which rule applies does not depend on how functions are named. -/
theorem kind_classify (a b : Bool) (t : Text) : (classify a t).kind = (classify b t).kind := by
  rw [classify_eq, classify_eq]
  split_ifs <;> rfl

/-- Where no name is exported and arrows give names, a function is named by what stands between the
leftmost opening parenthesis with an arrow's closing one behind it and the nearest such closing one; if
nothing stands there, it has no name. Without such a pair the name is the same as when arrows give none.
The kind never depends on whether arrows give names. -/
theorem functionName?_arrow (t : Text) :
    (Forms.exportName.occursIn t = false →
      ((∃ before params after, ArrowList t before params after) →
        (∃ before params after, FirstArrowList t before params after) ∧
        ∀ before params after, FirstArrowList t before params after →
          (functionRule true).name? t = if params = [] then none else some params) ∧
      ((¬ ∃ before params after, ArrowList t before params after) →
        (functionRule true).name? t = (functionRule false).name? t)) ∧
    (classify true t).kind = (classify false t).kind := by
  refine ⟨fun hx => ⟨fun hlist => ⟨?_, ?_⟩, fun hnone => ?_⟩, kind_classify true false t⟩
  · obtain ⟨n, hn⟩ := Option.isSome_iff_exists.1 (Forms.occursIn_arrowParams_iff.2 hlist)
    obtain ⟨before, after, hfirst⟩ := Forms.exists_firstArrowList hn
    exact ⟨before, n, after, hfirst⟩
  · intro before params after hfirst
    exact functionName?_of_firstArrowList hx hfirst
  · exact functionName?_of_no_arrow (mt Forms.occursIn_arrowParams_iff.1 hnone)

/-- A function with a callback in its body. -/
def callbackBody : Text := "function each(list) \x7blist.map((x) => x)\x7d".toList

/-- A function without an arrow. -/
def arrowless : Text := "function add(a, b) \x7breturn a + b;\x7d".toList

theorem functionName?_arrow_callbackBody :
    (Forms.exportName.occursIn callbackBody = false ∧
      ∃ before params after, FirstArrowList callbackBody before params after ∧
        params = "list) \x7blist.map((x".toList) ∧
    (Forms.exportName.occursIn arrowless = false ∧
      (¬ ∃ before params after, ArrowList arrowless before params after) ∧
      (functionRule true).name? arrowless = some "add".toList) := by
  have hx : Forms.exportName.occursIn callbackBody = false := by decide +kernel
  have hx' : Forms.exportName.occursIn arrowless = false := by decide +kernel
  have hlist := Forms.occursIn_arrowParams_iff.1
    (show Forms.arrowParams.occursIn callbackBody by decide +kernel)
  have hnone : ¬ ∃ before params after, ArrowList arrowless before params after :=
    mt Forms.occursIn_arrowParams_iff.2 (by decide +kernel)
  obtain ⟨⟨before, params, after, hfirst⟩, hname⟩ := ((functionName?_arrow callbackBody).1 hx).1 hlist
  have hparams := hname before params after hfirst
  have hvalue : (functionRule true).name? callbackBody = some "list) \x7blist.map((x".toList := by
    decide +kernel
  refine ⟨⟨hx, before, params, after, hfirst, ?_⟩, hx', hnone, ?_⟩
  · rw [hvalue] at hparams
    split at hparams
    · cases hparams
    · exact (Option.some.inj hparams).symm
  · rw [((functionName?_arrow arrowless).1 hx').2 hnone]
    decide +kernel

/-! ## Names that are one list -/

/-- The list of the first arrow is the one that the first parenthesis opens if and only if an arrow
follows the partner of that parenthesis and none follows a closing parenthesis before it. -/
theorem FirstArrowList.eq_iff {params' after' : Text} (h : FirstArrowList t before params after)
    (heq : params ++ ')' :: after = params' ++ ')' :: after') :
    params = params' ↔ StartsArrow after' ∧
      ∀ a b, params' = a ++ ')' :: b → ¬ StartsArrow (b ++ ')' :: after') := by
  constructor
  · rintro rfl
    obtain rfl : after = after' := (List.cons.inj (List.append_cancel_left heq)).2
    exact ⟨h.arrow, fun a b => h.not_startsArrow⟩
  · rintro ⟨harrow, hnone⟩
    have hle := h.nearest params' after' ⟨by rw [h.eq, heq], harrow⟩
    rcases Nat.lt_or_eq_of_le hle with hlt | hlen
    · obtain ⟨b, hb, hafter⟩ := exists_between_of_eq heq hlt
      rw [hafter] at h
      exact absurd h.arrow (hnone params b hb)
    · exact (List.append_inj heq hlen).1

/-- In a balanced text, let the first opening parenthesis and its partner enclose `params`. A name that
an arrow gives is balanced if and only if it is `params`, and it is `params` if and only if an arrow
follows the partner and none follows a closing parenthesis in `params`. -/
theorem functionName?_balanced_iff {t p : Text} (ht : Balanced t)
    (hx : Forms.exportName.occursIn t = false) (harrow : Forms.arrowParams.occursIn t)
    (hp : (functionRule true).name? t = some p) :
    ∃ before params after, t = before ++ '(' :: (params ++ ')' :: after) ∧ '(' ∉ before ∧
      Balanced params ∧ (Balanced p ↔ p = params) ∧
      (p = params ↔ StartsArrow after ∧
        ∀ a b, params = a ++ ')' :: b → ¬ StartsArrow (b ++ ')' :: after)) := by
  obtain ⟨n, hn⟩ := Option.isSome_iff_exists.1 harrow
  obtain ⟨before, after, hfirst⟩ := Forms.exists_firstArrowList hn
  obtain rfl : p = n := by
    change functionName? true t = some p at hp
    rw [functionName?_of_firstArrowList hx hfirst] at hp
    split at hp
    · cases hp
    · exact (Option.some.inj hp).symm
  rw [hfirst.eq] at ht
  obtain ⟨params, after', heq, hparams⟩ := ht.exists_partner hfirst.open_not_mem
  refine ⟨before, params, after', by rw [hfirst.eq, heq], hfirst.open_not_mem, hparams, ?_, ?_⟩
  · constructor
    · intro hbalanced
      exact hbalanced.partner_unique hparams heq
    · rintro rfl
      exact hparams
  · exact hfirst.eq_iff heq

/-- An arrow function with a list in its list. -/
def nestedList : Text := "const pick = (keys, rows = all()) => rows".toList

theorem functionName?_balanced_nestedList :
    (Balanced nestedList ∧ Forms.exportName.occursIn nestedList = false ∧
      Forms.arrowParams.occursIn nestedList ∧
      (functionRule true).name? nestedList = some "keys, rows = all()".toList) ∧
    ∃ before params after, nestedList = before ++ '(' :: (params ++ ')' :: after) ∧
      '(' ∉ before ∧ params = "keys, rows = all()".toList ∧ StartsArrow after := by
  have ht : Balanced nestedList := by decide +kernel
  have hx : Forms.exportName.occursIn nestedList = false := by decide +kernel
  have harrow : Forms.arrowParams.occursIn nestedList := by decide +kernel
  have hp : (functionRule true).name? nestedList = some "keys, rows = all()".toList := by
    decide +kernel
  obtain ⟨before, params, after, heq, hb, -, hbalanced, hparams⟩ :=
    functionName?_balanced_iff ht hx harrow hp
  have hsame : "keys, rows = all()".toList = params := hbalanced.1 (by decide +kernel)
  exact ⟨⟨ht, hx, harrow, hp⟩, before, params, after, heq, hb, hsame.symm, (hparams.1 hsame).1⟩

/-- In a balanced text that shows a function, exports nothing and has an arrow, the name need not be
balanced: it starts in the function's own list and ends in that of the callback. -/
theorem functionName?_unbalanced : Balanced callbackBody ∧ (functionRule true).applies callbackBody ∧
    Forms.exportName.occursIn callbackBody = false ∧ Forms.arrowParams.occursIn callbackBody ∧
    (functionRule true).name? callbackBody = some "list) \x7blist.map((x".toList ∧
    ¬ Balanced "list) \x7blist.map((x".toList := by
  refine ⟨?_, ?_, ?_, ?_, ?_, ?_⟩ <;> decide +kernel

end Bookbinder
