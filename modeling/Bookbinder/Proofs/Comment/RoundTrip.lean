import Mathlib.Tactic.MkIffOfInductiveProp
import Bookbinder.Proofs.Comment.Blocks

/-!
# Comments that are read back

A comment whose texts keep to the lines and braces that printing gives them (`Comment.IsPrintable`) is
read back as it was printed (`parse_print`). Its rows are those of `Comment.blocks`; each value is taken
apart where it was put together: at the brace that closes the type (`closeBrace_append`), at the first
blank behind the name, and at the dash in front of the description (`stripDash_trimEnd`). The blocks
then go back into the fields they come from, in order (`foldl_push`).
-/

namespace Bookbinder

/-! ## Texts that are printed -/

/-- No brace is closed that was not opened before, and none is left open. -/
structure IsBalanced (t : Text) : Prop where
  opened : ∀ s, s <+: t → s.count '}' ≤ s.count '{'
  closed : t.count '{' = t.count '}'

instance (t : Text) : Decidable (IsBalanced t) :=
  decidable_of_iff
    ((∀ n < t.length + 1, (t.take n).count '}' ≤ (t.take n).count '{') ∧ t.count '{' = t.count '}')
    ⟨fun ⟨ho, hc⟩ => ⟨fun s hs => by
      rw [List.prefix_iff_eq_take.1 hs]
      exact ho _ (Nat.lt_succ_of_le hs.length_le), hc⟩,
    fun h => ⟨fun n _ => h.opened _ (List.take_prefix n t), h.closed⟩⟩

/-- A text on one line, with no blank at its ends. -/
@[mk_iff]
structure IsLine (t : Text) : Prop where
  trimmed : trim t = t
  oneLine : '\n' ∉ t

instance (t : Text) : Decidable (IsLine t) :=
  decidable_of_iff' _ (isLine_iff t)

/-- A type that can stand in braces. -/
@[mk_iff]
structure IsTypeText (t : Text) : Prop extends IsLine t where
  ne_nil : t ≠ []
  balanced : IsBalanced t

instance (t : Text) : Decidable (IsTypeText t) :=
  decidable_of_iff' _ (isTypeText_iff t)

@[mk_iff]
structure Param.IsPrintable (p : Param) : Prop where
  type : ∀ t ∈ p.type?, IsTypeText t
  name_ne_nil : p.name ≠ []
  name_blank : HasNoBlank p.name
  name_default : '=' ∉ p.name
  name_head : p.name.head? ≠ some '[' ∧ p.name.head? ≠ some '{'
  name_last : p.name.getLast? ≠ some ']'
  description : IsLine p.description

instance (p : Param) : Decidable (Param.IsPrintable p) :=
  decidable_of_iff' _ (Param.isPrintable_iff p)

@[mk_iff]
structure Note.IsPrintable (n : Note) : Prop where
  type : ∀ t ∈ n.type?, IsTypeText t
  description : IsLine n.description

instance (n : Note) : Decidable (Note.IsPrintable n) :=
  decidable_of_iff' _ (Note.isPrintable_iff n)

/-- The names that are filed under parameters, results and errors. -/
def filedTags : List Text :=
  ["param", "arg", "argument", "returns", "return", "throws", "throw", "exception"]

def linkTags : List Text := ["link", "see"]

/-- The tag is kept as it is in a comment with this link. -/
@[mk_iff]
structure Tag.IsPrintable (link : Option Text) (t : Tag) : Prop where
  name_blank : HasNoBlank t.tag
  unfiled : t.tag ∉ filedTags
  later : t.tag ∈ linkTags → link.isSome ∨ t.value = []
  value : IsLine t.value

instance (link : Option Text) (t : Tag) : Decidable (Tag.IsPrintable link t) :=
  decidable_of_iff' _ (Tag.isPrintable_iff link t)

/-- A comment without a place, with texts that printing does not blur. -/
@[mk_iff]
structure Comment.IsPrintable (c : Comment) : Prop where
  unlocated : c.start = none ∧ c.stop = none
  trimmed : trim c.description = c.description
  lines : ∀ l ∈ lines c.description, trim l = l ∧ l.head? ≠ some '@'
  params : ∀ p ∈ c.params, p.IsPrintable
  returns : ∀ n ∈ c.returns, n.IsPrintable
  throws : ∀ n ∈ c.throws, n.IsPrintable
  link : ∀ t ∈ c.link, t ≠ [] ∧ IsLine t
  tags : ∀ t ∈ c.tags, t.IsPrintable c.link

instance (c : Comment) : Decidable (Comment.IsPrintable c) :=
  decidable_of_iff' _ (Comment.isPrintable_iff c)

/-! ## The blocks of a comment -/

/-- The value that a parameter is printed as. -/
def Param.value (p : Param) : Text := typeText p.type? ++ p.name ++ " - ".toList ++ p.description

/-- The value that a result or an error is printed as. -/
def Note.value (n : Note) : Text := typeText n.type? ++ "- ".toList ++ n.description

def Comment.blocks (c : Comment) : List Block :=
  c.params.map (fun p => ⟨"param", p.value⟩) ++ c.returns.map (fun n => ⟨"returns", n.value⟩) ++
    c.throws.map (fun n => ⟨"throws", n.value⟩) ++ c.link.toList.map (fun t => ⟨"link", t⟩) ++
    c.tags.map (fun t => ⟨t.tag, t.value⟩)

theorem print_eq (c : Comment) :
    c.print = blockText (lines c.description ++ c.blocks.map Block.row) := by
  have hparam (p : Param) : Block.row ⟨"param", p.value⟩ = p.line := by
    have h : "@param ".toList = '@' :: "param".toList ++ [' '] := by decide
    unfold Block.row Param.line Param.value
    rw [h]
    simp only [List.append_assoc, List.cons_append, List.nil_append]
  have hnote (tag : Text) (n : Note) : Block.row ⟨tag, n.value⟩ = n.line tag := by
    unfold Block.row Note.line Note.value
    simp only [List.append_assoc, List.cons_append]
  have hlink (t : Text) : Block.row ⟨"link", t⟩ = "@link ".toList ++ t := by
    have h : "@link ".toList = '@' :: "link".toList ++ [' '] := by decide
    unfold Block.row
    rw [h, List.append_assoc]
    rfl
  have hrows : c.rows = lines c.description ++ c.blocks.map Block.row := by
    simp only [Comment.rows, Comment.blocks, List.map_append, List.map_map, Function.comp_def, hparam,
      hnote, hlink, List.append_assoc]
    rfl
  rw [Comment.print, hrows]
  rfl

/-! ## Values -/

theorem count_cons_eq (c x : Char) (t : Text) : (x :: t).count c = [x].count c + t.count c := by
  rw [← List.singleton_append, List.count_append]

/-- A character is the brace that is looked for, or it changes the number of open braces. -/
theorem closeBrace_cons (depth : Nat) (x : Char) (t : Text) :
    (x = '}' ∧ depth = 0 ∧ closeBrace depth (x :: t) = some ([], t)) ∨
    ∃ depth', [x].count '{' + depth = [x].count '}' + depth' ∧
      closeBrace depth (x :: t) = (closeBrace depth' t).map fun r => (x :: r.1, r.2) := by
  rw [closeBrace.eq_def]
  dsimp only
  by_cases h₁ : x = '{'
  · subst h₁
    rw [if_pos rfl]
    exact .inr ⟨depth + 1, by simp; omega, rfl⟩
  · by_cases h₂ : x = '}'
    · subst h₂
      cases depth with
      | zero => exact .inl ⟨rfl, rfl, rfl⟩
      | succ d => exact .inr ⟨d, by simp; omega, rfl⟩
    · rw [if_neg h₁, if_neg h₂]
      exact .inr ⟨depth, by simp [h₁, h₂], rfl⟩

/-- Balanced text in front of a text changes neither its depth nor what it is cut into. -/
theorem closeBrace_append {t : Text} {depth depth' : Nat}
    (ho : ∀ s, s <+: t → s.count '}' ≤ s.count '{' + depth)
    (hc : t.count '{' + depth = t.count '}' + depth') (u : Text) :
    closeBrace depth (t ++ u) = (closeBrace depth' u).map fun r => (t ++ r.1, r.2) := by
  induction t generalizing depth with
  | nil =>
    obtain rfl : depth = depth' := by simpa using hc
    simp
  | cons x t ih =>
    have hs (s : Text) (h : s <+: t) :
        [x].count '}' + s.count '}' ≤ [x].count '{' + s.count '{' + depth := by
      have hle := ho (x :: s) (List.cons_prefix_cons.2 ⟨rfl, h⟩)
      rwa [count_cons_eq _ x s, count_cons_eq _ x s] at hle
    rw [count_cons_eq _ x t, count_cons_eq _ x t] at hc
    rw [List.cons_append]
    rcases closeBrace_cons depth x (t ++ u) with ⟨rfl, rfl, -⟩ | ⟨d, hd, hrec⟩
    · -- This brace would close more than is open.
      have hle := hs [] List.nil_prefix
      simp at hle
    · have hle (s : Text) (h : s <+: t) : s.count '}' ≤ s.count '{' + d := by
        have := hs s h
        omega
      rw [hrec, ih hle (by omega), Option.map_map]
      rfl

/-- A type in braces is taken off what follows it. -/
theorem splitType_braces {t rest : Text} (htrim : trim t = t) (hne : t ≠ []) (hb : IsBalanced t)
    (hblank : ∀ x, rest.head? = some x → isBlank x = false) :
    splitType ('{' :: (t ++ '}' :: ' ' :: rest)) = (some t, rest) := by
  have hclose : closeBrace 0 (t ++ '}' :: ' ' :: rest) = some (t, ' ' :: rest) := by
    have happ := closeBrace_append hb.opened (congrArg (· + 0) hb.closed)
    rw [happ]
    simp [closeBrace]
  have hempty : t.isEmpty = false := by simpa using hne
  rw [splitType, trimStart_cons_of_not_blank (by decide)]
  simp only [hclose]
  rw [htrim, nonEmpty?, hempty, trimStart_cons_of_blank (by decide), trimStart_eq_self hblank]
  rfl

/-- A type that is printed is read back. -/
theorem splitType_typeText {type? : Option Text} (ht : ∀ t ∈ type?, IsTypeText t) {rest : Text}
    (hblank : ∀ x, rest.head? = some x → isBlank x = false) (hbrace : rest.head? ≠ some '{') :
    splitType (typeText type? ++ rest) = (type?, rest) := by
  cases type? with
  | none =>
    rw [show typeText none ++ rest = rest from rfl, splitType, trimStart_eq_self hblank]
    split
    · simp at hbrace
    · rfl
  | some t =>
    have h := ht t rfl
    have htext : typeText (some t) ++ rest = '{' :: (t ++ '}' :: ' ' :: rest) := by
      simp [typeText]
    rw [htext]
    exact splitType_braces h.trimmed h.ne_nil h.balanced hblank

/-- A description is found behind its dash. -/
theorem stripDash_trimEnd {t : Text} (h : trim t = t) :
    stripDash ('-' :: trimEnd (' ' :: t)) = t := by
  unfold stripDash
  rw [trim_cons_of_not_blank (by decide), trimEnd_trimEnd]
  show trim (trimEnd (' ' :: t)) = t
  rw [trim_trimEnd, trim_cons_of_blank (by decide), h]

theorem head?_typeText (type? : Option Text) {rest : Text}
    (hblank : ∀ x, rest.head? = some x → isBlank x = false) :
    ∀ x, (typeText type? ++ rest).head? = some x → isBlank x = false := by
  cases type? with
  | none => exact hblank
  | some t =>
    intro x hx
    obtain rfl := Option.some.inj hx
    decide

theorem Note.ofValue_trim {n : Note} (h : n.IsPrintable) : Note.ofValue (trim n.value) = n := by
  have hvalue : trim n.value = typeText n.type? ++ '-' :: trimEnd (' ' :: n.description) := by
    have hv : n.value = typeText n.type? ++ '-' :: ' ' :: n.description := by simp [Note.value]
    rw [hv]
    refine trim_append_cons (trimStart_eq_self (head?_typeText _ ?_)) (by decide)
    intro x hx
    obtain rfl := Option.some.inj hx
    decide
  rw [hvalue, Note.ofValue, splitType_typeText h.type]
  · exact congrArg (Note.mk n.type?) (stripDash_trimEnd h.description.trimmed)
  · intro x hx
    obtain rfl := Option.some.inj hx
    decide
  · simp

theorem paramName_eq_self {p : Param} (h : p.IsPrintable) : paramName p.name = p.name := by
  have hhead : p.name.dropWhile (· == '[') = p.name := by
    have := h.name_head.1
    cases hn : p.name with
    | nil => rfl
    | cons x name =>
      rw [hn] at this
      exact List.dropWhile_cons_of_neg (by simpa using this)
  have hlast : dropEndWhile (· == ']') p.name = p.name := by
    have := h.name_last
    rw [← List.head?_reverse] at this
    unfold dropEndWhile
    cases hn : p.name.reverse with
    | nil => simpa using hn.symm
    | cons x name =>
      rw [hn] at this
      rw [List.dropWhile_cons_of_neg (by simpa using this), ← hn, List.reverse_reverse]
  unfold paramName
  rw [hhead, hlast]
  have hkeep : ∀ x ∈ p.name, (x != '=') = true := by
    intro x hx
    rw [bne_iff_ne]
    rintro rfl
    exact h.name_default hx
  rw [← List.append_nil p.name, List.takeWhile_append_of_pos hkeep]
  rfl

theorem Param.ofValue?_trim {p : Param} (h : p.IsPrintable) :
    Param.ofValue? (trim p.value) = some p := by
  obtain ⟨x, name, hname⟩ := List.exists_cons_of_ne_nil h.name_ne_nil
  have hx : ∀ y, (p.name ++ ' ' :: '-' :: trimEnd (' ' :: p.description)).head? = some y →
      isBlank y = false := by
    intro y hy
    rw [hname] at hy
    obtain rfl := Option.some.inj hy
    exact h.name_blank x (by simp [hname])
  have hvalue : trim p.value =
      typeText p.type? ++ (p.name ++ ' ' :: '-' :: trimEnd (' ' :: p.description)) := by
    have hv : p.value =
        (typeText p.type? ++ p.name ++ [' ']) ++ '-' :: ' ' :: p.description := by
      simp [Param.value]
    have hstart : trimStart ((typeText p.type? ++ p.name ++ [' ']) ++ '-' :: ' ' :: p.description) =
        (typeText p.type? ++ p.name ++ [' ']) ++ '-' :: ' ' :: p.description := by
      apply trimStart_eq_self
      rw [List.append_assoc, List.append_assoc]
      apply head?_typeText
      rw [hname]
      intro y hy
      obtain rfl := Option.some.inj hy
      exact h.name_blank x (by simp [hname])
    rw [hv, trim_append_cons hstart (by decide)]
    simp
  have hbrace : (p.name ++ ' ' :: '-' :: trimEnd (' ' :: p.description)).head? ≠ some '{' := by
    have := h.name_head.2
    rw [hname] at this ⊢
    exact this
  have hne : p.name.isEmpty = false := by simp [hname]
  rw [hvalue, Param.ofValue?, splitType_typeText h.type hx hbrace]
  dsimp only
  rw [splitWord_append_blank h.name_blank (by decide)]
  dsimp only
  rw [hne, paramName_eq_self h, stripDash_trimEnd h.description.trimmed]
  rfl

/-! ## Rows -/

theorem newline_not_mem_typeText {type? : Option Text} (h : ∀ t ∈ type?, IsTypeText t) :
    '\n' ∉ typeText type? := by
  cases type? with
  | none => simp [typeText]
  | some t => simpa [typeText] using (h t rfl).oneLine

theorem HasNoBlank.newline_not_mem {t : Text} (h : HasNoBlank t) : '\n' ∉ t := by
  intro hn
  exact absurd (h _ hn) (by decide)

theorem newline_not_mem_param {p : Param} (h : p.IsPrintable) : '\n' ∉ p.value := by
  simpa [Param.value] using ⟨newline_not_mem_typeText h.type, h.name_blank.newline_not_mem,
    h.description.oneLine⟩

theorem newline_not_mem_note {n : Note} (h : n.IsPrintable) : '\n' ∉ n.value := by
  simpa [Note.value] using ⟨newline_not_mem_typeText h.type, h.description.oneLine⟩

/-- Each block of a printable comment has a word for its tag and a value on one line. -/
theorem isLine_blocks {c : Comment} (h : c.IsPrintable) :
    ∀ b ∈ c.blocks, '\n' ∉ b.row ∧ HasNoBlank b.tag := by
  have hrow {tag value : Text} (ht : HasNoBlank tag) (hv : '\n' ∉ value) :
      '\n' ∉ Block.row ⟨tag, value⟩ ∧ HasNoBlank tag :=
    ⟨by simpa [Block.row] using ⟨ht.newline_not_mem, hv⟩, ht⟩
  intro b hb
  simp only [Comment.blocks, List.mem_append, List.mem_map] at hb
  obtain (((⟨p, hp, rfl⟩ | ⟨n, hn, rfl⟩) | ⟨n, hn, rfl⟩) | ⟨t, ht, rfl⟩) | ⟨t, ht, rfl⟩ := hb
  · exact hrow (by decide) (newline_not_mem_param (h.params p hp))
  · exact hrow (by decide) (newline_not_mem_note (h.returns n hn))
  · exact hrow (by decide) (newline_not_mem_note (h.throws n hn))
  · exact hrow (by decide) (h.link t (by simpa using ht)).2.oneLine
  · exact hrow (h.tags t ht).name_blank (h.tags t ht).value.oneLine

/-! ## Filing -/

/-- Blocks that each add one entry add the list of them. -/
theorem foldl_push {α : Type} {f : α → Block} {xs : List α} (add : Comment → List α → Comment)
    (hnil : ∀ c, add c [] = c) (hcons : ∀ c x ys, add (add c [x]) ys = add c (x :: ys))
    (hlink : ∀ c ys, (add c ys).link = c.link) {c : Comment}
    (h : ∀ x ∈ xs, ∀ c', c'.link = c.link → Comment.push c' (f x) = add c' [x]) :
    (xs.map f).foldl Comment.push c = add c xs := by
  induction xs generalizing c with
  | nil => exact (hnil c).symm
  | cons x xs ih =>
    rw [List.map_cons, List.foldl_cons, h x (by simp) c rfl, ← hcons c x xs]
    apply ih
    intro y hy c' hc'
    exact h y (List.mem_cons_of_mem _ hy) c' (hc'.trans (hlink c [x]))

theorem foldl_push_params {ps : List Param} (h : ∀ p ∈ ps, p.IsPrintable) (c : Comment) :
    (ps.map fun p => Block.trimmed ⟨"param", p.value⟩).foldl Comment.push c =
      { c with params := c.params ++ ps } := by
  refine foldl_push (fun c ps => { c with params := c.params ++ ps }) (by simp) (by simp) (by simp) ?_
  intro p hp c' _
  have hvalue := Param.ofValue?_trim (h p hp)
  show { c' with params := c'.params ++ (Param.ofValue? (trim p.value)).toList } = _
  rw [hvalue]
  rfl

theorem foldl_push_returns {ns : List Note} (h : ∀ n ∈ ns, n.IsPrintable) (c : Comment) :
    (ns.map fun n => Block.trimmed ⟨"returns", n.value⟩).foldl Comment.push c =
      { c with returns := c.returns ++ ns } := by
  refine foldl_push (fun c ns => { c with returns := c.returns ++ ns }) (by simp) (by simp) (by simp) ?_
  intro n hn c' _
  show { c' with returns := c'.returns ++ [Note.ofValue (trim n.value)] } = _
  rw [Note.ofValue_trim (h n hn)]

theorem foldl_push_throws {ns : List Note} (h : ∀ n ∈ ns, n.IsPrintable) (c : Comment) :
    (ns.map fun n => Block.trimmed ⟨"throws", n.value⟩).foldl Comment.push c =
      { c with throws := c.throws ++ ns } := by
  refine foldl_push (fun c ns => { c with throws := c.throws ++ ns }) (by simp) (by simp) (by simp) ?_
  intro n hn c' _
  show { c' with throws := c'.throws ++ [Note.ofValue (trim n.value)] } = _
  rw [Note.ofValue_trim (h n hn)]

/-- The first link that is printed becomes the link of a comment without one. -/
theorem foldl_push_link {link : Option Text} (h : ∀ t ∈ link, t ≠ [] ∧ IsLine t) {c : Comment}
    (hc : c.link = none) :
    (link.toList.map fun t => Block.trimmed ⟨"link", t⟩).foldl Comment.push c =
      { c with link := link } := by
  cases link with
  | none => exact congrArg (fun l => { c with link := l }) hc
  | some t =>
    obtain ⟨hne, hline⟩ := h t rfl
    have hvalue : t.isEmpty = false := by simpa using hne
    show (if c.link.isNone && !(trim t).isEmpty then { c with link := some (trim t) } else _) = _
    rw [hline.trimmed, hc, hvalue]
    rfl

/-- A name that is not filed under parameters, results or errors is free or names a link. -/
theorem ofName_of_unfiled {name : Text} (h : name ∉ filedTags) :
    TagClass.ofName name = .free ∨ TagClass.ofName name = .link ∧ name ∈ linkTags := by
  have hnames : ∀ e ∈ TagClass.names, e.1.toList ∉ filedTags →
      e.2 = .link ∧ e.1.toList ∈ linkTags := by decide
  unfold TagClass.ofName
  cases hf : TagClass.names.find? (·.1.toList == name) with
  | none => exact .inl rfl
  | some e =>
    obtain rfl : e.1.toList = name := by simpa using List.find?_some hf
    exact .inr (hnames e (List.mem_of_find?_eq_some hf) h)

theorem foldl_push_tags {ts : List Tag} {c : Comment} (h : ∀ t ∈ ts, t.IsPrintable c.link) :
    (ts.map fun t => Block.trimmed ⟨t.tag, t.value⟩).foldl Comment.push c =
      { c with tags := c.tags ++ ts } := by
  refine foldl_push (fun c ts => { c with tags := c.tags ++ ts }) (by simp) (by simp) (by simp) ?_
  intro t ht c' hlink
  have hp := h t ht
  unfold Comment.push Block.trimmed
  dsimp only
  rw [hp.value.trimmed]
  rcases ofName_of_unfiled hp.unfiled with hf | ⟨hf, hmem⟩
  · rw [hf]
  · have hkept : (c'.link.isNone && !t.value.isEmpty) = false := by
      rw [hlink]
      rcases hp.later hmem with h | h
      · simp [Option.isNone_eq_false_iff.2 h]
      · simp [h]
    rw [hf, hkept]
    rfl

/-- A printable comment is read back from its block. -/
theorem parse_print {c : Comment} (h : c.IsPrintable) : Comment.parse c.print = c := by
  have hlines : ∀ l ∈ lines c.description, '\n' ∉ l ∧ trim l = l ∧ l.head? ≠ some '@' := by
    intro l hl
    refine ⟨fun hn => ?_, h.lines l hl⟩
    exact absurd (of_mem_splitWhen hl _ hn) (by decide)
  rw [print_eq, parse_blockText hlines (isLine_blocks h), lines, joinWith_splitWhen, h.trimmed]
  simp only [Comment.blocks, List.map_append, List.map_map, Function.comp_def, List.foldl_append]
  rw [foldl_push_params h.params, foldl_push_returns h.returns, foldl_push_throws h.throws,
    foldl_push_link h.link rfl, foldl_push_tags (by exact h.tags)]
  obtain ⟨hstart, hstop⟩ := h.unlocated
  cases c
  simp_all

/-- A comment with braces in a type, a dash in a description and a second link. -/
def fullComment : Comment where
  description := "Draws a frame.\n\n- a list - of things".toList
  params := [⟨"opts.size".toList, some "{w: {px: number}}".toList, "- the size".toList⟩,
    ⟨"done".toList, none, []⟩]
  returns := [⟨some "Frame".toList, []⟩, ⟨none, "{drawn} or not".toList⟩]
  throws := [⟨some "Error|null".toList, "when - closed".toList⟩]
  link := some "Canvas#frame".toList
  tags := [⟨"see".toList, "Canvas".toList⟩, ⟨"@since".toList, "1.2 @beta".toList⟩, ⟨"async".toList, []⟩]

theorem parse_print_fullComment :
    fullComment.IsPrintable ∧ Comment.parse fullComment.print = fullComment := by
  have h : fullComment.IsPrintable := by decide +kernel
  exact ⟨h, parse_print h⟩

end Bookbinder
