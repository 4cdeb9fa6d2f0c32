import Bookbinder.Proofs.Comment.Braces
import Bookbinder.Proofs.Text.Joining

/-!
# The form of comments that are read

Whatever the raw text is, a comment read from it keeps to a normal form (`Comment.IsNormal`): its texts are
trimmed, all but the description are of one line, types are balanced, tags that have a field of their own
are not among the free tags, and no link is left there while the comment has none.

Each block of the raw text has a word for its tag and a trimmed value of one line
(`TagSection.isNormal_block`), what is cut out of such a value is in normal form (`Param.isNormal_of_ofValue?`,
`Note.isPrintable_ofValue`), and filing a block keeps the form of the comment (`Comment.IsNormal.push`).
-/

namespace Bookbinder

variable {t l value raw : Text} {b : Block} {c : Comment} {p : Param}

/-! ## Normal form -/

/-- A parameter whose name is a word or nothing. -/
structure Param.IsNormal (p : Param) : Prop where
  type : ∀ t ∈ p.type?, IsTypeText t
  name : HasNoBlank p.name
  description : IsLine p.description

/-- A comment with trimmed texts, whose notes and tags can be printed as they are. -/
structure Comment.IsNormal (c : Comment) : Prop where
  trimmed : trim c.description = c.description
  lines : ∀ l ∈ lines c.description, trim l = l ∧ l.head? ≠ some '@'
  params : ∀ p ∈ c.params, p.IsNormal
  returns : ∀ n ∈ c.returns, n.IsPrintable
  throws : ∀ n ∈ c.throws, n.IsPrintable
  link : ∀ t ∈ c.link, t ≠ [] ∧ IsLine t
  tags : ∀ t ∈ c.tags, t.IsPrintable c.link

/-- A block whose tag is a word or nothing. -/
structure Block.IsNormal (b : Block) : Prop where
  tag : HasNoBlank b.tag
  value : IsLine b.value

/-! ## Parts of a value -/

theorem isLine_trim (h : '\n' ∉ t) : IsLine (trim t) :=
  ⟨trim_trim t, fun hn => h ((isInfix_trim t).mem hn)⟩

theorem stripDash_isInfix (t : Text) : stripDash t <:+: t :=
  ((isInfix_trim _).trans (stripHead_isSuffix _ _).isInfix).trans (isInfix_trim t)

theorem isLine_stripDash (h : '\n' ∉ t) : IsLine (stripDash t) :=
  ⟨trim_trim _, fun hn => h ((stripDash_isInfix t).mem hn)⟩

/-- Blanks at the ends do not count for the balance. -/
theorem IsBalanced.trim (h : IsBalanced t) : IsBalanced (trim t) where
  opened s hs := by
    obtain ⟨a, b, ha, -, ht⟩ := exists_margins t
    have hprefix : a ++ s <+: t := by
      rw [ht]
      exact (List.prefix_append_right_inj a).2 (hs.trans (List.prefix_append ..))
    have hle := h.opened _ hprefix
    rwa [List.count_append, List.count_append, ha.count_eq_zero (by decide),
      ha.count_eq_zero (by decide), Nat.zero_add, Nat.zero_add] at hle
  closed := by
    rw [count_trim (by decide), count_trim (by decide)]
    exact h.closed

theorem splitType_isSuffix (value : Text) : (splitType value).2 <:+ value := by
  have hstart : trimStart value <:+ value := List.dropWhile_suffix isBlank
  rcases splitType_cases value with ⟨inner, rest, hclosed, hsplit⟩ | ⟨-, hsplit⟩
  · have hrest : rest <:+ trimStart value := ⟨'{' :: (inner ++ ['}']), by simp [hclosed.eq]⟩
    rw [hsplit]
    exact ((List.dropWhile_suffix isBlank).trans hrest).trans hstart
  · rw [hsplit]
    exact hstart

theorem isTypeText_splitType (h : '\n' ∉ value) : ∀ t ∈ (splitType value).1, IsTypeText t := by
  intro t ht
  rcases splitType_cases value with ⟨inner, rest, hclosed, hsplit⟩ | ⟨-, hsplit⟩
  · obtain ⟨heq, hb⟩ := isClosedType_iff.1 hclosed
    have hinner : inner <:+: trimStart value := ⟨['{'], '}' :: rest, by simp [heq]⟩
    have hline : '\n' ∉ inner := fun hn =>
      h ((hinner.trans (List.dropWhile_suffix isBlank).isInfix).mem hn)
    rw [hsplit, nonEmpty?_trim] at ht
    split at ht
    · cases ht
    · rename_i hblank
      obtain rfl := Option.some.inj ht
      exact ⟨isLine_trim hline, mt trim_eq_nil_iff.1 hblank, hb.trim⟩
  · rw [hsplit] at ht
    cases ht

theorem dropEndWhile_isPrefix (q : Char → Bool) (t : Text) : dropEndWhile q t <+: t := by
  rw [← List.reverse_suffix, dropEndWhile, List.reverse_reverse]
  exact List.dropWhile_suffix q

theorem paramName_isInfix (word : Text) : paramName word <:+: word :=
  (((List.takeWhile_prefix _).trans (dropEndWhile_isPrefix _ _)).isInfix).trans
    (List.dropWhile_suffix _).isInfix

/-- A parameter has the type of the value; its name is taken out of the first word behind the type, and
its description is what comes then. -/
theorem Param.ofValue?_eq_some (h : Param.ofValue? value = some p) :
    (splitType value).2.takeWhile (!isBlank ·) ≠ [] ∧
    p = ⟨paramName ((splitType value).2.takeWhile (!isBlank ·)), (splitType value).1,
      stripDash ((splitType value).2.dropWhile (!isBlank ·)).tail⟩ := by
  rw [Param.ofValue?] at h
  dsimp only at h
  rw [splitWord_eq] at h
  dsimp only at h
  split at h
  · cases h
  · rename_i hne
    exact ⟨by simpa using hne, (Option.some.inj h).symm⟩

theorem Param.isNormal_of_ofValue? (hv : '\n' ∉ value) (h : Param.ofValue? value = some p) :
    p.IsNormal := by
  obtain ⟨-, rfl⟩ := Param.ofValue?_eq_some h
  refine ⟨isTypeText_splitType hv, fun x hx => ?_, isLine_stripDash fun hn => hv ?_⟩
  · exact hasNoBlank_takeWhile _ x ((paramName_isInfix _).mem hx)
  · exact (((List.tail_suffix _).trans (List.dropWhile_suffix _)).trans (splitType_isSuffix value)).mem hn

theorem Note.isPrintable_ofValue (hv : '\n' ∉ value) : (Note.ofValue value).IsPrintable :=
  ⟨isTypeText_splitType hv, isLine_stripDash fun hn => hv ((splitType_isSuffix value).mem hn)⟩

/-! ## Blocks -/

theorem newline_not_mem_cleanLines (h : l ∈ cleanLines raw) : '\n' ∉ l := by
  obtain ⟨line, hline, rfl⟩ := List.mem_map.1 h
  intro hn
  exact newline_not_mem_of_mem_lines hline
    ((((isInfix_trim _).trans (stripHead_isSuffix _ _).isInfix).trans (isInfix_trim line)).mem hn)

/-- The sections of a cleaned text are blocks in normal form. -/
theorem TagSection.isNormal_block {s : TagSection} (h : ∀ l ∈ s.lines, '\n' ∉ l ∧ trim l = l) :
    s.block.IsNormal := by
  obtain ⟨hhead, hbody⟩ := List.forall_mem_cons.1 h
  have hpiece : ∀ l ∈ (trim (s.head.dropWhile (!isBlank ·)) :: s.body).filter (!·.all isBlank),
      l ≠ [] ∧ IsLine l := by
    intro l hl
    obtain ⟨hmem, hne⟩ := List.mem_filter.1 hl
    refine ⟨fun he => by simp [he] at hne, ?_⟩
    rcases List.mem_cons.1 hmem with rfl | hmem
    · refine isLine_trim fun hn => hhead.1 (List.mem_cons_of_mem _ ?_)
      exact (List.dropWhile_suffix _).mem hn
    · exact ⟨(hbody l hmem).2, (hbody l hmem).1⟩
  refine ⟨hasNoBlank_takeWhile s.head, ?_, fun hn => ?_⟩
  · exact trim_joinWith_eq_self fun l hl => ⟨(hpiece l hl).1, (hpiece l hl).2.trimmed⟩
  · rcases of_mem_joinWith hn with hn | ⟨l, hl, hn⟩
    · simp at hn
    · exact (hpiece l hl).2.oneLine hn

theorem IsCut.isNormal_block {description : List Text} {sections : List TagSection}
    (h : IsCut (cleanLines raw) description sections) : ∀ b ∈ sections.map TagSection.block, b.IsNormal := by
  intro b hb
  obtain ⟨s, hs, rfl⟩ := List.mem_map.1 hb
  refine TagSection.isNormal_block fun l hl => ?_
  have hmem : l ∈ cleanLines raw := by
    rw [h.eq, List.mem_append, List.mem_flatMap]
    exact .inr ⟨s, hs, hl⟩
  exact ⟨newline_not_mem_cleanLines hmem, trim_of_mem_cleanLines hmem⟩

/-! ## Comments -/

/-- A tag that was kept for want of a link, or beside one, can be kept when there is a link. -/
theorem Tag.IsPrintable.of_link {link : Option Text} {t : Tag} (h : t.IsPrintable link) (link' : Text) :
    t.IsPrintable (some link') :=
  ⟨h.name_blank, h.unfiled, fun _ => .inl rfl, h.value⟩

theorem Block.unfiled_of_field (h : b.field = .others) : b.tag ∉ filedTags := by
  have hfiled : ∀ tag ∈ filedTags, tag ∈ paramTags ∨ tag ∈ returnTags ∨ tag ∈ throwTags := by decide
  intro hmem
  unfold Block.field at h
  rcases hfiled _ hmem with hp | hr | ht
  · rw [if_pos hp] at h
    cases h
  · split_ifs at h
  · split_ifs at h

/-- A block that is filed as a tag has no field of its own, and is no link unless there is one. -/
theorem Block.isPrintable_toTag (hb : b.IsNormal) (h : b.field = .others) {link : Option Text}
    (hlink : ¬(link.isNone && b.isLink)) : b.toTag.IsPrintable link := by
  refine ⟨hb.tag, Block.unfiled_of_field h, fun hmem => ?_, hb.value⟩
  have hmem : b.tag ∈ linkTags := hmem
  cases link with
  | some t => exact .inl rfl
  | none =>
    right
    show b.value = []
    simpa [Block.isLink, hmem] using hlink

/-- Filing a block keeps the form of a comment. -/
theorem Comment.IsNormal.push (hc : c.IsNormal) (hb : b.IsNormal) : (c.push b).IsNormal := by
  rw [Comment.push_eq]
  cases hf : b.field with
  | params =>
    refine { hc with params := List.forall_mem_append.2 ⟨hc.params, fun p hp => ?_⟩ }
    exact Param.isNormal_of_ofValue? hb.value.oneLine (Option.mem_toList.1 hp)
  | returns =>
    refine { hc with returns := List.forall_mem_append.2 ⟨hc.returns, fun n hn => ?_⟩ }
    rw [List.mem_singleton.1 hn]
    exact Note.isPrintable_ofValue hb.value.oneLine
  | throws =>
    refine { hc with throws := List.forall_mem_append.2 ⟨hc.throws, fun n hn => ?_⟩ }
    rw [List.mem_singleton.1 hn]
    exact Note.isPrintable_ofValue hb.value.oneLine
  | others =>
    dsimp only
    split
    · rename_i hlink
      rw [Bool.and_eq_true] at hlink
      refine { hc with link := fun t ht => ?_, tags := fun t ht => (hc.tags t ht).of_link _ }
      obtain rfl := Option.some.inj ht
      have hvalue : (decide (b.tag ∈ linkTags) && !b.value.isEmpty) = true := hlink.2
      exact ⟨by simpa using (Bool.and_eq_true_iff.1 hvalue).2, hb.value⟩
    · rename_i hlink
      refine { hc with tags := List.forall_mem_append.2 ⟨hc.tags, fun t ht => ?_⟩ }
      rw [List.mem_singleton.1 ht]
      exact Block.isPrintable_toTag hb hf hlink

theorem Comment.IsNormal.foldl_push {blocks : List Block} (hc : c.IsNormal)
    (h : ∀ b ∈ blocks, b.IsNormal) : (blocks.foldl Comment.push c).IsNormal := by
  induction blocks generalizing c with
  | nil => exact hc
  | cons b blocks ih =>
    obtain ⟨hb, hblocks⟩ := List.forall_mem_cons.1 h
    exact ih (hc.push hb) hblocks

/-- A comment of nothing but a description is in normal form. -/
theorem Comment.isNormal_description {ls : List Text}
    (h : ∀ l ∈ ls, '\n' ∉ l ∧ trim l = l ∧ l.head? ≠ some '@') :
    Comment.IsNormal { description := trim (joinWith ['\n'] ls) } := by
  obtain ⟨us, hus, hjoin⟩ := exists_trim_joinWith fun l hl => (h l hl).2.1
  refine ⟨trim_trim _, fun l hl => ?_, ?_, ?_, ?_, ?_, ?_⟩
  · dsimp only at hl
    rw [hjoin] at hl
    cases us with
    | nil =>
      obtain rfl : l = [] := List.mem_singleton.1 hl
      exact ⟨rfl, by simp⟩
    | cons u us =>
      rw [lines_joinWith fun u hu => (h u (hus.mem hu)).1] at hl
      exact (h l (hus.mem hl)).2
  all_goals simp

/-- A comment is read in normal form from every raw text. -/
theorem isNormal_parse (raw : Text) : (Comment.parse raw).IsNormal := by
  obtain ⟨description, sections, h⟩ := exists_isCut (cleanLines raw)
  rw [h.parse_eq]
  refine Comment.IsNormal.foldl_push (Comment.isNormal_description fun l hl => ?_) h.isNormal_block
  have hmem : l ∈ cleanLines raw := by
    rw [h.eq]
    exact List.mem_append_left _ hl
  exact ⟨newline_not_mem_cleanLines hmem, trim_of_mem_cleanLines hmem, h.description l hl⟩

end Bookbinder
