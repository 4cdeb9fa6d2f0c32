import Bookbinder.Proofs.Comment.RoundTrip
import Bookbinder.Proofs.Text.Margins

/-!
# Parameters with defaults

The name of a parameter may stand in brackets with a default behind it, as in `[size=10]`. The value of
the tag is cut at its first blank before the brackets are looked at, so a default without blanks stays
with the name and is dropped (`paramName_default`), but one with a blank is cut, and what stands behind
the blank counts as description (`OptionalParam.ofValue?_of_blank`).
-/

namespace Bookbinder

variable {s t : Text} {x : Char}

/-! ## Parts of a value -/

/-- The name in brackets ends at the sign. -/
theorem paramName_default {n : Text} (hne : n ≠ []) (hb : '[' ∉ n) (he : '=' ∉ n) (rest : Text) :
    paramName ('[' :: (n ++ '=' :: rest)) = n := by
  obtain ⟨y, n, rfl⟩ := List.exists_cons_of_ne_nil hne
  have hy : (y == '[') = false := by
    rw [beq_eq_false_iff_ne]
    rintro rfl
    exact hb List.mem_cons_self
  have hkeep : ∀ z ∈ y :: n, (z != '=') = true := by
    intro z hz
    rw [bne_iff_ne]
    rintro rfl
    exact he hz
  have hopen : ('[' :: (y :: n ++ '=' :: rest)).dropWhile (· == '[') = y :: n ++ '=' :: rest :=
    dropWhile_append_stop (s := ['[']) (by simp) (by simp [hy])
  rw [paramName, hopen, dropEndWhile_append_cons (by decide)]
  exact takeWhile_append_stop hkeep (by simp)

theorem count_stripDash (hx : isBlank x = false) (hd : x ≠ '-') (t : Text) :
    (stripDash t).count x = t.count x := by
  rw [stripDash, count_trim hx, stripHead]
  cases hs : stripHead? "-" (trim t) with
  | none => exact count_trim hx t
  | some r =>
    have ht := stripHead?_eq_some hs
    rw [← count_trim hx t, ht]
    show r.count x = ('-' :: r).count x
    rw [List.count_cons_of_ne hd.symm]

/-! ## Optional parameters -/

/-- A parameter with a default. -/
structure OptionalParam where
  type : Text
  name : Text
  default : Text
  description : Text

namespace OptionalParam

/-- The value of the tag: the type in braces, the name with its default in brackets, and the description
behind a dash. -/
def value (o : OptionalParam) : Text :=
  '{' :: (o.type ++ '}' :: ' ' :: '[' :: (o.name ++ '=' :: (o.default ++ "] - ".toList ++ o.description)))

/-- The parts keep to the signs around them. -/
structure IsWritable (o : OptionalParam) : Prop where
  type_trimmed : trim o.type = o.type
  type_ne_nil : o.type ≠ []
  type_balanced : IsBalanced o.type
  name_ne_nil : o.name ≠ []
  name_blank : HasNoBlank o.name
  name_brackets : '[' ∉ o.name ∧ ']' ∉ o.name
  name_brace : '{' ∉ o.name
  name_sign : '=' ∉ o.name
  default_bracket : ']' ∉ o.default
  default_line : '\n' ∉ o.default
  description : IsLine o.description

/-- What stands behind the default once the value is trimmed. -/
def closing (o : OptionalParam) : Text := ']' :: ' ' :: '-' :: trimEnd (' ' :: o.description)

variable {o : OptionalParam}

theorem trim_value (o : OptionalParam) : trim o.value =
    '{' :: (o.type ++ '}' :: ' ' :: '[' :: (o.name ++ '=' :: (o.default ++ o.closing))) := by
  have hvalue : o.value = ('{' :: (o.type ++ '}' :: ' ' :: '[' :: (o.name ++ '=' ::
      (o.default ++ [']', ' '])))) ++ '-' :: ' ' :: o.description := by
    simp [value]
  rw [hvalue, trim_append_cons _ (by decide)]
  · simp [closing]
  · exact trimStart_cons_of_not_blank (by decide) _

/-- The value is cut at the first blank behind the name, which may stand in the default. -/
theorem ofValue?_value (h : o.IsWritable) {word rest : Text} (hw : HasNoBlank word) (hx : isBlank x)
    (hcut : o.default ++ o.closing = word ++ x :: rest) :
    Param.ofValue? (trim o.value) = some ⟨o.name, some o.type, stripDash rest⟩ := by
  have htype : splitType (trim o.value) =
      (some o.type, '[' :: (o.name ++ '=' :: (o.default ++ o.closing))) := by
    rw [trim_value]
    refine splitType_braces h.type_trimmed h.type_ne_nil h.type_balanced fun y hy => ?_
    obtain rfl := Option.some.inj hy
    decide
  have hword : splitWord ('[' :: (o.name ++ '=' :: (word ++ x :: rest))) =
      ('[' :: (o.name ++ '=' :: word), rest) := by
    have hblank : HasNoBlank ('[' :: (o.name ++ '=' :: word)) := by
      intro y hy
      simp only [List.mem_cons, List.mem_append] at hy
      rcases hy with rfl | hy | rfl | hy
      · decide
      · exact h.name_blank y hy
      · decide
      · exact hw y hy
    rw [← splitWord_append_blank hblank hx rest]
    simp
  have hname := paramName_default h.name_ne_nil h.name_brackets.1 h.name_sign word
  rw [Param.ofValue?, htype, hcut]
  dsimp only
  rw [hword]
  dsimp only
  rw [hname]
  rfl

/-- A default without blanks is dropped. -/
theorem ofValue?_of_hasNoBlank (h : o.IsWritable) (hd : HasNoBlank o.default) :
    Param.ofValue? (trim o.value) = some ⟨o.name, some o.type, o.description⟩ := by
  have hword : HasNoBlank (o.default ++ [']']) := by
    intro y hy
    rcases List.mem_append.1 hy with hy | hy
    · exact hd y hy
    · obtain rfl := List.mem_singleton.1 hy
      decide
  have hcut : o.default ++ o.closing =
      (o.default ++ [']']) ++ ' ' :: ('-' :: trimEnd (' ' :: o.description)) := by
    simp [closing]
  rw [ofValue?_value h hword (by decide) hcut, stripDash_trimEnd h.description.trimmed]

/-- What stands behind the first blank of a default is taken for description. -/
theorem ofValue?_of_blank (h : o.IsWritable) {d₁ d₂ : Text} (hd : o.default = d₁ ++ x :: d₂)
    (hd₁ : HasNoBlank d₁) (hx : isBlank x) : Param.ofValue? (trim o.value) =
      some ⟨o.name, some o.type, stripDash (d₂ ++ "] - ".toList ++ o.description)⟩ := by
  -- The value is trimmed before it is cut, which changes nothing in front of the dash.
  have hend : d₂ ++ o.closing = trimEnd (d₂ ++ "] - ".toList ++ o.description) := by
    have hdash := dropEndWhile_append_cons (p := isBlank) (x := '-') (by decide) (d₂ ++ [']', ' '])
      (' ' :: o.description)
    have hsigns : "] - ".toList = [']', ' ', '-', ' '] := rfl
    rw [hsigns]
    simpa [closing, trimEnd] using hdash.symm
  have hrest : stripDash (d₂ ++ o.closing) = stripDash (d₂ ++ "] - ".toList ++ o.description) := by
    rw [hend, stripDash, trim_trimEnd]
    rfl
  have hcut : o.default ++ o.closing = d₁ ++ x :: (d₂ ++ o.closing) := by simp [hd]
  rw [ofValue?_value h hd₁ hx hcut, hrest]

/-- Such a description is not the one that was written, as it has the bracket. -/
theorem stripDash_ne (o : OptionalParam) (d : Text) :
    stripDash (d ++ "] - ".toList ++ o.description) ≠ o.description := by
  intro he
  have hcount := count_stripDash (x := ']') (by decide) (by decide)
    (d ++ "] - ".toList ++ o.description)
  rw [he, List.count_append, List.count_append] at hcount
  have hbracket : "] - ".toList.count ']' = 1 := by decide
  omega

end OptionalParam

/-- Whatever its default, a parameter is filed with its name and type. It keeps its description if and
only if the default has no blank; otherwise the description starts behind the first blank of the
default. -/
theorem push_optionalParam {o : OptionalParam} (h : o.IsWritable) : ∃ description,
    (∀ c : Comment, c.push ⟨"param", trim o.value⟩ =
      { c with params := c.params ++ [⟨o.name, some o.type, description⟩] }) ∧
    ('\n' ∉ o.type → Comment.parse (blockText [Block.row ⟨"param", o.value⟩]) =
      { params := [⟨o.name, some o.type, description⟩] }) ∧
    (description = o.description ↔ HasNoBlank o.default) ∧
    ∀ d₁ x d₂, o.default = d₁ ++ x :: d₂ → HasNoBlank d₁ → isBlank x →
      description = stripDash (d₂ ++ "] - ".toList ++ o.description) := by
  obtain ⟨description, hvalue⟩ : ∃ description,
      Param.ofValue? (trim o.value) = some ⟨o.name, some o.type, description⟩ := by
    by_cases hd : HasNoBlank o.default
    · exact ⟨_, OptionalParam.ofValue?_of_hasNoBlank h hd⟩
    · obtain ⟨d₁, x, d₂, hd, hd₁, hx⟩ := exists_first_blank hd
      exact ⟨_, OptionalParam.ofValue?_of_blank h hd hd₁ hx⟩
  have hblank {d₁ d₂ : Text} {x : Char} (hd : o.default = d₁ ++ x :: d₂) (hd₁ : HasNoBlank d₁)
      (hx : isBlank x) : description = stripDash (d₂ ++ "] - ".toList ++ o.description) := by
    have heq := hvalue.symm.trans (OptionalParam.ofValue?_of_blank h hd hd₁ hx)
    exact (Param.mk.inj (Option.some.inj heq)).2.2
  have hpush (c : Comment) : c.push ⟨"param", trim o.value⟩ =
      { c with params := c.params ++ [⟨o.name, some o.type, description⟩] } := by
    show { c with params := c.params ++ (Param.ofValue? (trim o.value)).toList } = _
    rw [hvalue]
    rfl
  refine ⟨description, hpush, fun ht => ?_, ?_, fun d₁ x d₂ hd hd₁ hx => hblank hd hd₁ hx⟩
  · have hline : '\n' ∉ Block.row ⟨"param", o.value⟩ := by
      simp [Block.row, OptionalParam.value, ht, h.name_blank.newline_not_mem, h.default_line,
        h.description.oneLine]
    have hparse : Comment.parse (blockText ([] ++ [⟨"param", o.value⟩].map Block.row)) = _ :=
      parse_blockText (by simp) (by simpa using ⟨hline, by decide⟩)
    exact hparse.trans (hpush _)
  · constructor
    · intro hs
      by_contra hd
      obtain ⟨d₁, x, d₂, hd, hd₁, hx⟩ := exists_first_blank hd
      exact OptionalParam.stripDash_ne o d₂ ((hblank hd hd₁ hx).symm.trans hs)
    · intro hd
      have heq := hvalue.symm.trans (OptionalParam.ofValue?_of_hasNoBlank h hd)
      exact (Param.mk.inj (Option.some.inj heq)).2.2

/-- A default of one word. -/
def modeParam : OptionalParam := ⟨"string", "opts.mode", "strict", "Parsing mode"⟩

/-- A default of two words. -/
def greetedParam : OptionalParam := ⟨"string", "name", "John Doe", "The name"⟩

theorem isWritable_modeParam : modeParam.IsWritable := by
  constructor <;> decide +kernel

theorem isWritable_greetedParam : greetedParam.IsWritable := by
  constructor <;> decide +kernel

theorem push_optionalParam_modeParam :
    modeParam.IsWritable ∧
    Comment.parse (blockText [Block.row ⟨"param", modeParam.value⟩]) =
      { params := [⟨"opts.mode", some "string", "Parsing mode"⟩] } ∧
    greetedParam.IsWritable ∧
    Comment.parse (blockText [Block.row ⟨"param", greetedParam.value⟩]) =
      { params := [⟨"name", some "string", "Doe] - The name"⟩] } := by
  obtain ⟨description, -, hparse, hkept, -⟩ := push_optionalParam isWritable_modeParam
  obtain ⟨description', -, hparse', -, hcut⟩ := push_optionalParam isWritable_greetedParam
  obtain rfl : description = "Parsing mode".toList := hkept.2 (by decide)
  have hdoe : stripDash ("Doe".toList ++ "] - ".toList ++ greetedParam.description) =
      "Doe] - The name".toList := by
    decide +kernel
  obtain rfl : description' = "Doe] - The name".toList :=
    (hcut "John".toList ' ' "Doe".toList rfl (by decide) (by decide)).trans hdoe
  exact ⟨isWritable_modeParam, hparse (by decide), isWritable_greetedParam, hparse' (by decide)⟩

/-- A description need not survive the default in front of it. -/
theorem optionalParam_loses_description :
    ¬∀ o : OptionalParam, o.IsWritable → '\n' ∉ o.type →
      Comment.parse (blockText [Block.row ⟨"param", o.value⟩]) =
        { params := [⟨o.name, some o.type, o.description⟩] } := by
  intro h
  have hread := h greetedParam isWritable_greetedParam (by decide)
  have hcut : Comment.parse (blockText [Block.row ⟨"param", greetedParam.value⟩]) =
      { params := [⟨"name", some "string", "Doe] - The name"⟩] } := by
    decide +kernel
  rw [hcut] at hread
  revert hread
  decide

end Bookbinder
