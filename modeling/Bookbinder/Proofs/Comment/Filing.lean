import Bookbinder.Proofs.Comment.RoundTrip

/-!
# Where each block goes

The cleaned lines of a block are cut at the lines that start with a sign (`IsCut`): the description, and a
section for each tag with the lines that continue it (`TagSection`). Each section is one block, and no
block is lost, doubled or moved: `foldl_push_eq` says for every list of blocks which of them end up in
which field, in their order. Only the first link with a value is taken out of the tags.

So the four kinds of blocks are filed apart, and two neighbours of different kinds may change places
(`parse_filed`).
-/

namespace Bookbinder

variable {t inner rest value : Text}

/-! ## Sections -/

/-- The line of a tag without its sign, and the lines below it up to the next tag. -/
structure TagSection where
  head : Text
  body : List Text

namespace TagSection

/-- The section as it stands in the block. -/
def lines (s : TagSection) : List Text := ('@' :: s.head) :: s.body

/-- The tag goes up to the first blank. Its value is the trimmed rest of the line and the lines below it,
joined by single spaces without those that are blank. -/
def block (s : TagSection) : Block where
  tag := s.head.takeWhile (!isBlank ·)
  value := joinWith [' '] ((trim (s.head.dropWhile (!isBlank ·)) :: s.body).filter (!·.all isBlank))

end TagSection

/-- The lines are the description and the sections, and only the sections start with a sign. -/
structure IsCut (ls description : List Text) (sections : List TagSection) : Prop where
  eq : ls = description ++ sections.flatMap TagSection.lines
  description : ∀ l ∈ description, l.head? ≠ some '@'
  body : ∀ s ∈ sections, ∀ l ∈ s.body, l.head? ≠ some '@'

/-- Lines can always be cut. -/
theorem exists_isCut (ls : List Text) : ∃ description sections, IsCut ls description sections := by
  induction ls with
  | nil => exact ⟨[], [], rfl, by simp, by simp⟩
  | cons l ls ih =>
    obtain ⟨description, sections, rfl, hd, hb⟩ := ih
    by_cases hl : l.head? = some '@'
    · obtain ⟨head, rfl⟩ : ∃ head, l = '@' :: head := by
        cases l with
        | nil => cases hl
        | cons x l => exact ⟨l, by rw [Option.some.inj hl]⟩
      refine ⟨[], ⟨head, description⟩ :: sections, by simp [TagSection.lines], by simp, ?_⟩
      exact List.forall_mem_cons.2 ⟨hd, hb⟩
    · exact ⟨l :: description, sections, rfl, List.forall_mem_cons.2 ⟨hl, hd⟩, hb⟩

theorem cutBlocks_sections {sections : List TagSection}
    (h : ∀ s ∈ sections, ∀ l ∈ s.body, l.head? ≠ some '@') :
    cutBlocks (sections.flatMap TagSection.lines) =
      ([], sections.map fun s => Block.ofLines s.head s.body) := by
  induction sections with
  | nil => rfl
  | cons s sections ih =>
    obtain ⟨hs, hrest⟩ := List.forall_mem_cons.1 h
    rw [List.flatMap_cons, TagSection.lines, List.cons_append, cutBlocks_cons_tag,
      cutBlocks_lines hs, ih hrest, List.append_nil]
    rfl

theorem IsCut.cutBlocks_eq {ls description : List Text} {sections : List TagSection}
    (h : IsCut ls description sections) :
    cutBlocks ls = (description, sections.map fun s => Block.ofLines s.head s.body) := by
  rw [h.eq, cutBlocks_lines h.description, cutBlocks_sections h.body, List.append_nil]

theorem all_isBlank_of_trimmed (h : trim t = t) : t.all isBlank = t.isEmpty := by
  cases t with
  | nil => rfl
  | cons x t =>
    have hx : isBlank x = false := head?_of_trimmed h
    simp [hx]

theorem trim_of_mem_cleanLines {raw l : Text} (h : l ∈ cleanLines raw) : trim l = l := by
  obtain ⟨line, -, rfl⟩ := List.mem_map.1 h
  exact trim_trim _

/-- The lines of a section are read as its block. -/
theorem TagSection.ofLines_eq {s : TagSection} (h : ∀ l ∈ s.body, trim l = l) :
    Block.ofLines s.head s.body = s.block := by
  have hrest : trim (s.head.dropWhile (!isBlank ·)).tail = trim (s.head.dropWhile (!isBlank ·)) := by
    cases hd : s.head.dropWhile (!isBlank ·) with
    | nil => rfl
    | cons x rest =>
      have hx := head?_dropWhile (!isBlank ·) s.head
      rw [hd] at hx
      exact (trim_cons_of_blank (by simpa using hx) rest).symm
  have hfilter : (trim (s.head.dropWhile (!isBlank ·)) :: s.body).filter (!·.isEmpty) =
      (trim (s.head.dropWhile (!isBlank ·)) :: s.body).filter (!·.all isBlank) := by
    apply List.filter_congr
    intro l hl
    rcases List.mem_cons.1 hl with rfl | hl
    · rw [all_isBlank_of_trimmed (trim_trim _)]
    · rw [all_isBlank_of_trimmed (h l hl)]
  unfold Block.ofLines block
  rw [splitWord_eq]
  show Block.mk _ (joinWith [' '] ((trim (s.head.dropWhile (!isBlank ·)).tail :: s.body).filter _)) = _
  rw [hrest, hfilter]

theorem IsCut.parse_eq {raw : Text} {description : List Text} {sections : List TagSection}
    (h : IsCut (cleanLines raw) description sections) :
    Comment.parse raw = Comment.ofBlocks description (sections.map TagSection.block) := by
  have hblocks : (sections.map fun s => Block.ofLines s.head s.body) = sections.map TagSection.block := by
    apply List.map_congr_left
    intro s hs
    apply TagSection.ofLines_eq
    intro l hl
    have hmem : l ∈ cleanLines raw := by
      rw [h.eq, List.mem_append, List.mem_flatMap]
      exact .inr ⟨s, hs, List.mem_cons_of_mem _ hl⟩
    exact trim_of_mem_cleanLines hmem
  rw [Comment.parse, h.cutBlocks_eq, hblocks]

/-! ## Fields -/

/-- The parts of a comment that blocks are filed under. -/
inductive BlockField where
  | params
  | returns
  | throws
  | others
deriving DecidableEq

def paramTags : List Text := ["param", "arg", "argument"]

def returnTags : List Text := ["returns", "return"]

def throwTags : List Text := ["throws", "throw", "exception"]

-- Membership in the lists of tags goes by the characters of the texts.
local instance : LawfulBEq Text := inferInstanceAs (LawfulBEq (List Char))

namespace Block

def field (b : Block) : BlockField :=
  if b.tag ∈ paramTags then .params
  else if b.tag ∈ returnTags then .returns
  else if b.tag ∈ throwTags then .throws
  else .others

/-- The block can be the link of a comment. -/
def isLink (b : Block) : Bool := b.tag ∈ linkTags && !b.value.isEmpty

def toTag (b : Block) : Tag := ⟨b.tag, b.value⟩

theorem field_of_isLink {b : Block} (h : b.isLink) : b.field = .others := by
  have htags : ∀ tag ∈ linkTags, tag ∉ paramTags ∧ tag ∉ returnTags ∧ tag ∉ throwTags := by decide
  have hmem : b.tag ∈ linkTags := by
    rw [isLink, Bool.and_eq_true, decide_eq_true_eq] at h
    exact h.1
  obtain ⟨hp, hr, ht⟩ := htags _ hmem
  rw [field, if_neg hp, if_neg hr, if_neg ht]

end Block

theorem ofName_eq (name : Text) : TagClass.ofName name =
    if name ∈ paramTags then .param
    else if name ∈ returnTags then .returns
    else if name ∈ throwTags then .throws
    else if name ∈ linkTags then .link
    else .free := by
  by_cases h : name ∈ TagClass.names.map (·.1.toList)
  · have hnames : ∀ n ∈ TagClass.names.map (·.1.toList), TagClass.ofName n =
        if n ∈ paramTags then .param
        else if n ∈ returnTags then .returns
        else if n ∈ throwTags then .throws
        else if n ∈ linkTags then .link
        else .free := by decide
    exact hnames name h
  · have hsub : ∀ n ∈ paramTags ++ returnTags ++ throwTags ++ linkTags,
        n ∈ TagClass.names.map (·.1.toList) := by decide
    have hnot := mt (hsub name) h
    simp only [List.mem_append, not_or] at hnot
    obtain ⟨⟨⟨hp, hr⟩, ht⟩, hl⟩ := hnot
    rw [if_neg hp, if_neg hr, if_neg ht, if_neg hl, TagClass.ofName, List.find?_eq_none.2]
    · rfl
    · intro e he hname
      exact h (List.mem_map.2 ⟨e, he, by simpa using hname⟩)

namespace Comment

/-- Filing one block touches the field of the block alone; a link takes the place of a tag once. -/
theorem push_eq (c : Comment) (b : Block) : c.push b =
    match b.field with
    | .params => { c with params := c.params ++ (Param.ofValue? b.value).toList }
    | .returns => { c with returns := c.returns ++ [Note.ofValue b.value] }
    | .throws => { c with throws := c.throws ++ [Note.ofValue b.value] }
    | .others =>
      if c.link.isNone && b.isLink then { c with link := some b.value }
      else { c with tags := c.tags ++ [b.toTag] } := by
  unfold push Block.field
  rw [ofName_eq]
  by_cases hp : b.tag ∈ paramTags
  · rw [if_pos hp, if_pos hp]
  · rw [if_neg hp, if_neg hp]
    by_cases hr : b.tag ∈ returnTags
    · rw [if_pos hr, if_pos hr]
    · rw [if_neg hr, if_neg hr]
      by_cases ht : b.tag ∈ throwTags
      · rw [if_pos ht, if_pos ht]
      · rw [if_neg ht, if_neg ht]
        by_cases hl : b.tag ∈ linkTags
        · have hlink : b.isLink = !b.value.isEmpty := by simp [Block.isLink, hl]
          rw [if_pos hl, hlink]
          rfl
        · have hlink : b.isLink = false := by simp [Block.isLink, hl]
          rw [if_neg hl, hlink, Bool.and_false]
          rfl

/-- The comment of a description and blocks that are sorted into their fields. -/
def ofFields (description : List Text) (blocks : BlockField → List Block) : Comment where
  description := trim (joinWith ['\n'] description)
  params := (blocks .params).filterMap (Param.ofValue? ·.value)
  returns := (blocks .returns).map (Note.ofValue ·.value)
  throws := (blocks .throws).map (Note.ofValue ·.value)
  link := ((blocks .others).find? Block.isLink).map Block.value
  tags := ((blocks .others).eraseP Block.isLink).map Block.toTag

/-- Filing blocks adds to each field the blocks of that field, in their order. -/
theorem foldl_push_eq (blocks : List Block) (c : Comment) : blocks.foldl push c =
    { c with
      params := c.params ++ (blocks.filter (·.field = .params)).filterMap (Param.ofValue? ·.value)
      returns := c.returns ++ (blocks.filter (·.field = .returns)).map (Note.ofValue ·.value)
      throws := c.throws ++ (blocks.filter (·.field = .throws)).map (Note.ofValue ·.value)
      link := c.link.or (((blocks.filter (·.field = .others)).find? Block.isLink).map Block.value)
      tags := c.tags ++ (if c.link.isSome then blocks.filter (·.field = .others)
        else (blocks.filter (·.field = .others)).eraseP Block.isLink).map Block.toTag } := by
  induction blocks generalizing c with
  | nil => simp
  | cons b blocks ih =>
    rw [List.foldl_cons, ih, push_eq]
    cases hb : b.field with
    | params => cases hp : Param.ofValue? b.value <;> simp [hb, hp]
    | returns => simp [hb]
    | throws => simp [hb]
    | others =>
      dsimp only
      cases hlink : c.link <;> cases hl : b.isLink <;> simp [hb, hl]

theorem ofBlocks_eq_ofFields (description : List Text) (blocks : List Block) :
    ofBlocks description blocks = ofFields description fun f => blocks.filter (·.field = f) := by
  rw [ofBlocks, foldl_push_eq]
  rfl

end Comment

/-- No link is filed with the parameters, results or errors. -/
theorem find?_isLink_others (blocks : List Block) :
    (blocks.filter (·.field = .others)).find? Block.isLink = blocks.find? Block.isLink := by
  have hothers (b : Block) : decide (decide (b.field = .others) ∧ b.isLink) = b.isLink := by
    cases hb : b.isLink with
    | false => simp
    | true => simp [Block.field_of_isLink hb]
  rw [List.find?_filter]
  simp only [hothers]

/-- Neighbours of different fields can change places, as each field is filtered on its own. -/
theorem filter_field_swap {x y : Block} (h : x.field ≠ y.field) (front back : List Block)
    (f : BlockField) : (front ++ x :: y :: back).filter (·.field = f) =
      (front ++ y :: x :: back).filter (·.field = f) := by
  rw [List.filter_append, List.filter_append]
  congr 1
  by_cases hx : x.field = f
  · have hy : y.field ≠ f := fun hy => h (hx.trans hy.symm)
    simp [hx, hy]
  · simp [List.filter_cons, hx]

/-! ## Parameters that are dropped -/

/-- Nothing but blanks, or a type in braces with blanks around it. -/
def IsBareType (value : Text) : Prop :=
  IsBlankRun value ∨ ∃ w inner w', IsBlankRun w ∧ IsBalanced inner ∧ IsBlankRun w' ∧
    value = w ++ '{' :: (inner ++ '}' :: w')

/-- Up to the brace that is found, the open braces are closed one by one, and no other is. -/
theorem closeBrace_eq_some {depth : Nat} (h : closeBrace depth t = some (inner, rest)) :
    t = inner ++ '}' :: rest ∧ (∀ s, s <+: inner → s.count '}' ≤ s.count '{' + depth) ∧
      inner.count '{' + depth = inner.count '}' := by
  induction t generalizing depth inner with
  | nil => cases h
  | cons x t ih =>
    rcases closeBrace_cons depth x t with ⟨rfl, rfl, hsome⟩ | ⟨depth', hdepth, hrec⟩
    · rw [hsome] at h
      obtain ⟨rfl, rfl⟩ := Prod.mk.inj (Option.some.inj h)
      simp
    · rw [hrec] at h
      obtain ⟨⟨inner', rest'⟩, hclose, heq⟩ := Option.map_eq_some_iff.1 h
      obtain ⟨rfl, rfl⟩ := Prod.mk.inj heq
      obtain ⟨rfl, ho, hc⟩ := ih hclose
      refine ⟨rfl, fun s hs => ?_, ?_⟩
      · rcases List.prefix_cons_iff.1 hs with rfl | ⟨s', rfl, hs'⟩
        · simp
        · have hle := ho s' hs'
          rw [count_cons_eq _ x s', count_cons_eq _ x s']
          omega
      · dsimp only
        rw [count_cons_eq _ x inner', count_cons_eq _ x inner']
        omega

theorem closeBrace_zero_eq_some_iff :
    closeBrace 0 t = some (inner, rest) ↔ t = inner ++ '}' :: rest ∧ IsBalanced inner := by
  constructor
  · intro h
    obtain ⟨rfl, ho, hc⟩ := closeBrace_eq_some h
    exact ⟨rfl, ho, hc⟩
  · rintro ⟨rfl, hb⟩
    rw [closeBrace_append hb.opened (congrArg (· + 0) hb.closed)]
    simp [closeBrace]

theorem splitType_rest_eq_nil_iff : (splitType value).2 = [] ↔ IsBareType value := by
  constructor
  · intro h
    unfold splitType at h
    dsimp only at h
    split at h
    · rename_i body hv
      split at h
      · rename_i inner rest hclose
        obtain ⟨rfl, hb⟩ := closeBrace_zero_eq_some_iff.1 hclose
        refine .inr ⟨value.takeWhile isBlank, inner, rest, ?_, hb, trimStart_eq_nil_iff.1 h, ?_⟩
        · exact List.all_eq_true.1 List.all_takeWhile
        · rw [← hv]
          exact List.takeWhile_append_dropWhile.symm
      · rw [hv] at h
        cases h
    · exact .inl (trimStart_eq_nil_iff.1 h)
  · rintro (h | ⟨w, inner, w', hw, hb, hw', rfl⟩)
    · rw [splitType, trimStart_eq_nil_iff.2 h]
    · have hstart : trimStart (w ++ '{' :: (inner ++ '}' :: w')) = '{' :: (inner ++ '}' :: w') :=
        dropWhile_append_stop hw rfl
      rw [splitType, hstart]
      simp only [closeBrace_zero_eq_some_iff.2 ⟨rfl, hb⟩]
      exact trimStart_eq_nil_iff.2 hw'

/-- Only a value without a name is dropped. -/
theorem Param.ofValue?_eq_none_iff : Param.ofValue? value = none ↔ IsBareType value := by
  have hblank : (splitType value).2.head?.any isBlank = false := by
    unfold splitType
    dsimp only
    split
    · split <;> exact head?_dropWhile isBlank _
    · exact head?_dropWhile isBlank _
  have hword : (splitWord (splitType value).2).1 = [] ↔ (splitType value).2 = [] := by
    rw [splitWord_eq]
    cases hrest : (splitType value).2 with
    | nil => simp
    | cons x rest =>
      rw [hrest] at hblank
      have hx : isBlank x = false := by simpa using hblank
      simp [hx]
  rw [← splitType_rest_eq_nil_iff, ← hword]
  simp [Param.ofValue?]

/-! ## Comments -/

/-- Every block has one place: the lines of a raw text can be cut, and each cut gives the comment, with the
blocks of each field in their order and the first link of all. A parameter is dropped if and only if its
value is a bare type. Texts that differ in the order of two neighbours of different fields are read
alike. -/
theorem parse_filed (raw : Text) :
    (∃ description sections, IsCut (cleanLines raw) description sections) ∧
    (∀ description sections, IsCut (cleanLines raw) description sections →
      Comment.parse raw = Comment.ofFields description (fun f =>
        (sections.map TagSection.block).filter (·.field = f)) ∧
      (Comment.parse raw).link =
        ((sections.map TagSection.block).find? Block.isLink).map Block.value) ∧
    (∀ value, Param.ofValue? value = none ↔ IsBareType value) ∧
    ∀ raw' description front x y back,
      IsCut (cleanLines raw) description (front ++ x :: y :: back) →
      IsCut (cleanLines raw') description (front ++ y :: x :: back) →
      x.block.field ≠ y.block.field → Comment.parse raw' = Comment.parse raw := by
  refine ⟨exists_isCut _, ?_, fun value => Param.ofValue?_eq_none_iff, ?_⟩
  · intro description sections h
    rw [h.parse_eq, Comment.ofBlocks_eq_ofFields]
    refine ⟨rfl, ?_⟩
    rw [Comment.ofFields, find?_isLink_others]
  · intro raw' description front x y back h h' hne
    rw [h.parse_eq, h'.parse_eq, Comment.ofBlocks_eq_ofFields, Comment.ofBlocks_eq_ofFields]
    congr 1
    funext f
    simpa using filter_field_swap hne.symm (front.map TagSection.block) (back.map TagSection.block) f

/-- A link without a value, a parameter without a name, a parameter that goes on below a blank line, and
an error that changes places with a link. -/
theorem parse_filed_drawing :
    let raw := blockText ["Draws.", "@see", "@param {number}", "@param {Size} size - how", "", "  large",
      "@see Canvas", "@throws {Error}", "@link Frame"]
    let raw' := blockText ["Draws.", "@see", "@param {number}", "@param {Size} size - how", "", "  large",
      "@throws {Error}", "@see Canvas", "@link Frame"]
    let description : List Text := ["", "Draws."]
    let front : List TagSection :=
      [⟨"see", []⟩, ⟨"param {number}", []⟩, ⟨"param {Size} size - how", ["", "large"]⟩]
    let x : TagSection := ⟨"see Canvas", []⟩
    let y : TagSection := ⟨"throws {Error}", []⟩
    let back : List TagSection := [⟨"link Frame", [""]⟩]
    IsCut (cleanLines raw) description (front ++ x :: y :: back) ∧
    IsCut (cleanLines raw') description (front ++ y :: x :: back) ∧
    x.block.field ≠ y.block.field ∧ Comment.parse raw' = Comment.parse raw ∧
    Comment.parse raw =
      { description := "Draws."
        params := [⟨"size", some "Size", "how large"⟩]
        throws := [⟨some "Error", ""⟩]
        link := some "Canvas"
        tags := [⟨"see", ""⟩, ⟨"link", "Frame"⟩] } := by
  intro raw raw' description front x y back
  have h : IsCut (cleanLines raw) description (front ++ x :: y :: back) :=
    ⟨by decide +kernel, by decide +kernel, by decide +kernel⟩
  have h' : IsCut (cleanLines raw') description (front ++ y :: x :: back) :=
    ⟨by decide +kernel, by decide +kernel, by decide +kernel⟩
  have hne : x.block.field ≠ y.block.field := by decide +kernel
  obtain ⟨-, hcut, -, hswap⟩ := parse_filed raw
  refine ⟨h, h', hne, hswap _ _ _ _ _ _ h h' hne, ?_⟩
  rw [(hcut _ _ h).1]
  decide +kernel

end Bookbinder
