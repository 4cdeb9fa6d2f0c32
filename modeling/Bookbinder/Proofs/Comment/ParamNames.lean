import Bookbinder.Proofs.Comment.NormalForm
import Mathlib.Data.List.Forall2
import Mathlib.Data.List.TakeWhile

/-!
# Parameters without a name

A parameter is filed if anything stands behind its type, and its name is what remains of the first word
there once brackets and the default are taken off. Nothing remains of some words (`IsNameless`), such as
`[]` and `=5`, and they are not sorted out: `parse_params_named` says for each parameter of a comment which
word it comes from and that its name is empty for exactly these words.
-/

namespace Bookbinder

variable {t w value : Text} {p : Param}

/-! ## Words without a name -/

/-- Behind opening brackets the word has closing ones only, or the sign of a default. -/
def IsNameless (w : Text) : Prop :=
  ∃ a b, w = a ++ b ∧ (∀ x ∈ a, x = '[') ∧ ((∀ x ∈ b, x = ']') ∨ b.head? = some '=')

theorem takeWhile_sign_eq_nil_iff : t.takeWhile (· != '=') = [] ↔ t = [] ∨ t.head? = some '=' := by
  cases t with
  | nil => simp
  | cons x t => by_cases hx : x = '=' <;> simp [hx]

theorem dropEndWhile_eq_nil_iff {q : Char → Bool} : dropEndWhile q t = [] ↔ ∀ x ∈ t, q x := by
  rw [dropEndWhile, List.reverse_eq_nil_iff, List.dropWhile_eq_nil_iff]
  simp only [List.mem_reverse]

/-- Closing brackets at the end leave the start of a text with another start. -/
theorem head?_dropEndWhile_eq {q : Char → Bool} {x : Char} (hx : q x = false) :
    (dropEndWhile q t).head? = some x ↔ t.head? = some x := by
  constructor
  · intro h
    obtain ⟨r, hr⟩ := dropEndWhile_isPrefix q t
    rw [← hr, List.head?_append, h]
    rfl
  · intro h
    obtain ⟨r, rfl⟩ := List.head?_eq_some_iff.1 h
    have hcons : dropEndWhile q ([] ++ x :: r) = [] ++ x :: dropEndWhile q r :=
      dropEndWhile_append_cons hx [] r
    rw [← List.nil_append (x :: r), hcons]
    rfl

theorem paramName_eq_nil_iff : paramName w = [] ↔ IsNameless w := by
  rw [paramName, takeWhile_sign_eq_nil_iff, dropEndWhile_eq_nil_iff, head?_dropEndWhile_eq (by decide)]
  constructor
  · intro h
    refine ⟨w.takeWhile (· == '['), w.dropWhile (· == '['), List.takeWhile_append_dropWhile.symm, ?_, ?_⟩
    · intro x hx
      simpa using List.all_eq_true.1 List.all_takeWhile x hx
    · simpa using h
  · rintro ⟨a, b, rfl, ha, hb⟩
    have hhead : b.head?.any (· == '[') = false := by
      cases b with
      | nil => rfl
      | cons x b =>
        rcases hb with hb | hb
        · simp [hb x List.mem_cons_self]
        · simp [Option.some.inj hb]
    rw [dropWhile_append_stop (by simpa using ha) hhead]
    simpa using hb

/-! ## The word of a parameter -/

/-- The parameter is named by the first word behind the type of the value, unless that names nothing. -/
structure Param.IsNamedBy (p : Param) (value w : Text) : Prop where
  word : IsFirstWord (splitType value).2 w
  name : p.name = paramName w
  nameless : p.name = [] ↔ IsNameless w

theorem Param.IsNamedBy.name_ne_nil_iff (h : p.IsNamedBy value w) :
    p.name ≠ [] ↔ ∀ w, IsFirstWord (splitType value).2 w → ¬IsNameless w := by
  rw [Ne, h.nameless]
  constructor
  · intro hw w' hw'
    rwa [← h.word.unique hw']
  · intro hall
    exact hall w h.word

theorem Param.exists_isNamedBy (h : Param.ofValue? value = some p) : ∃ w, p.IsNamedBy value w := by
  obtain ⟨hne, rfl⟩ := Param.ofValue?_eq_some h
  exact ⟨_, isFirstWord_takeWhile hne, rfl, paramName_eq_nil_iff⟩

/-! ## Comments -/

/-- The blocks that file a parameter: something stands behind the type. -/
def paramBlocks (raw : Text) : List Block :=
  (cutBlocks (cleanLines raw)).2.filter fun b => b.field = .params && !(splitType b.value).2.isEmpty

theorem forall₂_filterMap {α β : Type} {R : α → β → Prop} {f : α → Option β}
    (h : ∀ a b, f a = some b → R a b) (as : List α) :
    List.Forall₂ R (as.filter fun a => (f a).isSome) (as.filterMap f) := by
  induction as with
  | nil => exact .nil
  | cons a as ih =>
    cases hf : f a with
    | none => simpa [hf] using ih
    | some b => simpa [hf] using ⟨h a b hf, ih⟩

theorem isSome_ofValue? (value : Text) :
    (Param.ofValue? value).isSome = !(splitType value).2.isEmpty := by
  rw [Bool.eq_iff_iff, ← Option.ne_none_iff_isSome, Ne, Param.ofValue?_eq_none_iff,
    ← splitType_rest_eq_nil_iff]
  simp

theorem paramBlocks_eq (raw : Text) : paramBlocks raw =
    ((cutBlocks (cleanLines raw)).2.filter (·.field = .params)).filter
      fun b => (Param.ofValue? b.value).isSome := by
  simp only [paramBlocks, List.filter_filter, isSome_ofValue?, Bool.and_comm]

theorem params_parse (raw : Text) : (Comment.parse raw).params =
    ((cutBlocks (cleanLines raw)).2.filter (·.field = .params)).filterMap (Param.ofValue? ·.value) := by
  show (Comment.ofBlocks (cutBlocks (cleanLines raw)).1 (cutBlocks (cleanLines raw)).2).params = _
  rw [Comment.ofBlocks_eq_ofFields]
  rfl

theorem forall_named_iff {bs : List Block} {ps : List Param}
    (h : List.Forall₂ (fun b p => ∃ w, p.IsNamedBy b.value w) bs ps) : (∀ p ∈ ps, p.name ≠ []) ↔
      ∀ b ∈ bs, ∀ w, IsFirstWord (splitType b.value).2 w → ¬IsNameless w := by
  induction h with
  | nil => simp
  | cons hhead _ ih =>
    obtain ⟨w, hw⟩ := hhead
    rw [List.forall_mem_cons, List.forall_mem_cons, hw.name_ne_nil_iff, ih]

/-- Each parameter is named by the word that comes first behind the type in its block, and has no name if
and only if that word names nothing. So all parameters of a comment have names as long as none of these
words is such a one. -/
theorem parse_params_named (raw : Text) :
    List.Forall₂ (fun b p => ∃ w, p.IsNamedBy b.value w) (paramBlocks raw) (Comment.parse raw).params ∧
    ((∀ p ∈ (Comment.parse raw).params, p.name ≠ []) ↔
      ∀ b ∈ paramBlocks raw, ∀ w, IsFirstWord (splitType b.value).2 w → ¬IsNameless w) := by
  have hnamed : List.Forall₂ (fun b p => ∃ w, p.IsNamedBy b.value w) (paramBlocks raw)
      (Comment.parse raw).params := by
    rw [paramBlocks_eq, params_parse]
    exact forall₂_filterMap (fun (b : Block) p (h : Param.ofValue? b.value = some p) =>
      Param.exists_isNamedBy h) _
  exact ⟨hnamed, forall_named_iff hnamed⟩

/-- A parameter with an empty pair of brackets for its name. -/
def bareBrackets : Text := "/** @param {number} [] - The size. */".toList

/-- Not every parameter has a name. -/
theorem param_without_name :
    ¬∀ raw, ∀ p ∈ (Comment.parse raw).params, p.name ≠ [] := by
  intro h
  have hparse : (Comment.parse bareBrackets).params = [⟨"", some "number", "The size."⟩] := by
    decide +kernel
  exact h bareBrackets ⟨"", some "number", "The size."⟩ (by simp [hparse]) rfl

end Bookbinder
