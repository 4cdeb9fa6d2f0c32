import Bookbinder.Proofs.Book.Anchors
import Bookbinder.Proofs.Construct.Arrows
import Bookbinder.Proofs.Link.Locality
import Bookbinder.Proofs.Link.Names
import Bookbinder.Proofs.Text.Margins

/-!
# Names are taken from the text

Whatever rule names a construct, the name is a part of the text that the rule was applied to, and not an
empty one (`Construct.IsTakenFrom`): it is captured by a pattern (`Pattern.infix_of_find?`) or the first
word of what is captured. The text for a link is a window of trimmed lines run together, so the name has
no line feed, and neither has the heading that a page gives to the construct (`names_taken_from_text`).
-/

namespace Bookbinder

open Pattern

variable {t n : Text}

/-! ## Names of constructs -/

/-- The text stands in the other one and is not empty. -/
def IsPartOf (n t : Text) : Prop := n ≠ [] ∧ n <:+: t

/-- The construct has no name but one that stands in the text. Variables and classes always have one,
and where nothing is declared there is none. -/
structure Construct.IsTakenFrom (c : Construct) (t : Text) : Prop where
  isPartOf : ∀ n, c.name? = some n → IsPartOf n t
  unnamed : c.kind = .other → c.name? = none
  named : c.kind = .variableDecl ∨ c.kind = .classDecl → ∃ n, c.name? = some n

theorem isPartOf_of_nonEmpty? {s : Text} (h : nonEmpty? s = some n) (hs : s <:+: t) : IsPartOf n t := by
  rw [nonEmpty?_eq] at h
  split at h
  · cases h
  · rename_i hne
    cases h
    exact ⟨hne, hs⟩

theorem isPartOf_exportedName? (h : exportedName? t = some n) : IsPartOf n t := by
  obtain ⟨s, hs, hn⟩ := Option.bind_eq_some_iff.1 h
  exact isPartOf_of_nonEmpty? hn (infix_of_find? hs)

theorem isPartOf_functionName? {arrowNames : Bool} (h : functionName? arrowNames t = some n) :
    IsPartOf n t := by
  unfold functionName? at h
  split at h
  · cases h
  · rename_i declared hdeclared
    split at h
    · rename_i exported hexported
      cases h
      exact isPartOf_exportedName? hexported
    · split at h
      · rename_i params hparams
        split at hparams
        · exact isPartOf_of_nonEmpty? h (infix_of_find? hparams)
        · cases hparams
      · exact isPartOf_of_nonEmpty? h (infix_of_find? hdeclared)

theorem isPartOf_head?_words (h : (words t).head? = some n) : IsPartOf n t := by
  rcases isBlankRun_or_isFirstWord t with hblank | ⟨w, hw⟩
  · rw [words_eq_nil hblank] at h
    cases h
  · obtain rfl : w = n := Option.some.inj (hw.head?_words.symm.trans h)
    obtain ⟨lead, rest, rfl, -, hne, -⟩ := hw
    exact ⟨hne, lead, rest, (List.append_assoc ..)⟩

theorem isPartOf_moduleTagName? (h : moduleTagName? t = some n) : IsPartOf n t := by
  rw [moduleTagName?, Option.orElse_eq_or, Option.or_eq_some_iff] at h
  rcases h with h | ⟨-, h⟩
  · exact isPartOf_exportedName? h
  · obtain ⟨value, hvalue, hn⟩ := Option.bind_eq_some_iff.1 h
    obtain ⟨hne, hinfix⟩ := isPartOf_head?_words hn
    exact ⟨hne, hinfix.trans (infix_of_find? hvalue)⟩

/-- A name behind a keyword is a word. -/
theorem isPartOf_declared {q : Pattern} (h : (q ++ Forms.space ++ capture Forms.word).find? t = some n) :
    IsPartOf n t := by
  obtain ⟨-, -, -, -, -, -, hne⟩ := exists_blank_of_find? h
  exact ⟨hne, infix_of_find? h⟩

theorem isPartOf_name? {arrowNames : Bool} (h : (classify arrowNames t).name? = some n) :
    IsPartOf n t := by
  rw [classify_name?] at h
  split at h
  · exact isPartOf_functionName? h
  · exact isPartOf_moduleTagName? h
  · exact isPartOf_declared h
  · exact isPartOf_declared h
  · cases h

/-- The rules for variables and classes apply where they find a name. -/
theorem isTakenFrom_classify (arrowNames : Bool) (t : Text) :
    (classify arrowNames t).IsTakenFrom t where
  isPartOf _ h := isPartOf_name? h
  unnamed h := by rw [classify_name?, h]
  named h := by
    rw [classify_eq] at h ⊢
    split_ifs at h ⊢ with hf hm hv hc
    · simp at h
    · simp at h
    · exact Option.isSome_iff_exists.1 hv
    · exact Option.isSome_iff_exists.1 hc
    · simp [Construct.other] at h

/-! ## Names of links -/

theorem newline_not_mem_linesAfter {endLine size : Nat} : '\n' ∉ (linesAfter t endLine size).flatten := by
  intro h
  obtain ⟨line, hline, hmem⟩ := List.mem_flatten.1 h
  obtain ⟨raw, hraw, rfl⟩ := List.mem_map.1 hline
  have hlines : raw ∈ lines t := List.mem_of_mem_drop (List.mem_of_mem_take hraw)
  exact newline_not_mem_of_mem_lines hlines ((isInfix_trim raw).subset hmem)

theorem Linking.isTakenFrom_of_link {g : Linking} {content : Text} {c : Comment} {k : Construct}
    {w : Window} (h : g.link content c = .classified k w) :
    k.IsTakenFrom w.joined ∧ ∀ n, k.name? = some n → '\n' ∉ n := by
  obtain ⟨stop, -, hw, rfl⟩ := Linking.link_eq_classified h
  have htaken := isTakenFrom_classify g.arrowNames w.joined
  refine ⟨htaken, fun n hn hnl => ?_⟩
  rw [Window.after?_eq_ite] at hw
  split at hw
  · cases hw
    exact newline_not_mem_linesAfter ((htaken.isPartOf n hn).2.subset hnl)
  · cases hw

/-! ## Headings -/

/-- What stands between two line feeds is a line. -/
theorem mem_lines_between {line : Text} (h : '\n' ∉ line) (above below : Text) :
    line ∈ lines (above ++ '\n' :: (line ++ '\n' :: below)) := by
  rw [lines_append_cons_newline, lines_append_newline h]
  exact List.mem_append_right _ List.mem_cons_self

namespace Page

variable {i : Item} {s : SlugSet} {es : List Entry} {m : ModuleDoc} {g : Linking} {content : Text}
  {cs : List Comment}

/-- An item comes from an entry. -/
theorem exists_shows_of_mem_items (h : i ∈ items s es) : ∃ e ∈ es, Shows i e := by
  obtain ⟨hlength, hshows⟩ := List.forall₂_iff_get.1 (forall₂_shows_items s es)
  obtain ⟨k, hk, rfl⟩ := List.getElem_of_mem h
  exact ⟨_, (List.mem_filter.1 (List.get_mem _ ⟨k, hlength ▸ hk⟩)).1, hshows k hk (hlength ▸ hk)⟩

/-- The names of linked comments are of one line. -/
theorem newline_not_mem_name (h : i ∈ items s (g.linkAll content cs)) :
    ∀ n, i.construct.name? = some n → '\n' ∉ n := by
  obtain ⟨e, he, hs⟩ := exists_shows_of_mem_items h
  obtain ⟨c, -, rfl⟩ := List.mem_map.1 he
  have hc := hs.construct
  unfold Link.construct? at hc
  split at hc
  · rename_i k w hk
    split at hc
    · cases hc
    · obtain rfl := Option.some.inj hc
      exact (Linking.isTakenFrom_of_link hk).2
  · cases hc

theorem newline_not_mem_heading (hname : ∀ n, i.construct.name? = some n → '\n' ∉ n)
    (hanchor : IsSlug i.anchor) : '\n' ∉ i.heading := by
  have htitle : '\n' ∉ i.construct.kind.title := by
    cases i.construct.kind <;> decide
  have hshown : '\n' ∉ i.construct.name?.getD anonymous := by
    cases hn : i.construct.name? with
    | none => decide
    | some n => exact hname n hn
  have hslug : '\n' ∉ i.anchor :=
    hanchor.not_mem_of_isAlphanumeric (by decide +kernel) (by decide)
  simp [Item.heading, htitle, hshown, hslug]

/-- The heading of an item is a line of the page. -/
theorem heading_mem_lines (h : i ∈ items {} m.entries) (hline : '\n' ∉ i.heading) :
    "## ".toList ++ i.heading ∈ lines (ofModule m) := by
  obtain ⟨before, after, hitems⟩ := List.append_of_mem h
  obtain ⟨rest, hbody⟩ : "\n\n## ".toList ++ i.heading ++ "\n\n".toList <+: i.body := by
    have hprefix (a b c d e f : Text) : a <+: a ++ b ++ c ++ d ++ e ++ f := by
      simp only [List.append_assoc, List.prefix_append]
    exact hprefix _ _ _ _ _ _
  have hpage : ofModule m = (opening m.info ++ (before.flatMap Item.body ++ ['\n'])) ++
      '\n' :: (("## ".toList ++ i.heading) ++
        '\n' :: ('\n' :: (rest ++ (after.flatMap Item.body ++ ['\n'])))) := by
    have hlead : "\n\n## ".toList = '\n' :: '\n' :: "## ".toList := rfl
    have hgap : "\n\n".toList = ['\n', '\n'] := rfl
    rw [ofModule_eq, hitems, List.flatMap_append, List.flatMap_cons, ← hbody, hlead, hgap]
    simp only [List.append_assoc, List.cons_append, List.nil_append]
  rw [hpage]
  exact mem_lines_between (by simp [hline]) _ _

end Page

/-- Names are never made up. What a text is classified as has no name but a part of that text. So the
name of a link stands in its window and in one line, and the heading of a documented construct is a line
of its page. -/
theorem names_taken_from_text :
    (∀ arrowNames t, (classify arrowNames t).IsTakenFrom t) ∧
    (∀ (g : Linking) content c k w, g.link content c = .classified k w →
      k.IsTakenFrom w.joined ∧ ∀ n, k.name? = some n → '\n' ∉ n) ∧
    ∀ (g : Linking) content cs info, ∀ i ∈ Page.items {} (g.linkAll content cs),
      '\n' ∉ i.heading ∧
        "## ".toList ++ i.heading ∈ lines (Page.ofModule ⟨info, g.linkAll content cs⟩) := by
  refine ⟨isTakenFrom_classify, fun g content c k w h => Linking.isTakenFrom_of_link h, ?_⟩
  intro g content cs info i hi
  have hline := Page.newline_not_mem_heading (Page.newline_not_mem_name hi)
    (Page.isAnchor_of_mem_items hi).slug
  exact ⟨hline, Page.heading_mem_lines hi hline⟩

/-- An arrow whose parameters stand in two lines. -/
def longArrow : Text := "/** Adds. */\nconst add = (left,\n  right) =>\n  left + right".toList

def longArrowComment : Comment := { start := some ⟨1, 0⟩, stop := some ⟨1, 12⟩ }

def longArrowWindow : Window :=
  ⟨"/** Adds. */", ["const add = (left,", "right) =>", "left + right"]⟩

/-- The module of that source. -/
def longArrowModule : ModuleDoc :=
  ⟨⟨"sum", [], "sum.js", "api", "v1"⟩, ({} : Linking).linkAll longArrow [longArrowComment]⟩

theorem names_taken_from_text_longArrow :
    ({} : Linking).link longArrow longArrowComment =
      .classified ⟨.function, some "left,right".toList⟩ longArrowWindow ∧
    "left,right".toList <:+: longArrowWindow.joined ∧ '\n' ∉ "left,right".toList ∧
    ∃ i ∈ Page.items {} longArrowModule.entries,
      "## ".toList ++ i.heading ∈ lines (Page.ofModule longArrowModule) := by
  have hlink : ({} : Linking).link longArrow longArrowComment =
      .classified ⟨.function, some "left,right".toList⟩ longArrowWindow := by
    decide +kernel
  have hlength : (Page.items {} longArrowModule.entries).length = 1 := by decide +kernel
  obtain ⟨i, hi⟩ := List.length_eq_one_iff.1 hlength
  have hmem : i ∈ Page.items {} longArrowModule.entries := by simp [hi]
  obtain ⟨-, hlinked, hpages⟩ := names_taken_from_text
  obtain ⟨htaken, hline⟩ := hlinked _ _ _ _ _ hlink
  exact ⟨hlink, (htaken.isPartOf _ rfl).2, hline _ rfl, i, hmem, (hpages _ _ _ _ i hmem).2⟩

end Bookbinder
