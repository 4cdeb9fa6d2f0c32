import Bookbinder.Book.Page
import Bookbinder.Proofs.Text.Cutting

/-!
# Titles in double quotes

A page opens with its title in double quotes. In there a backslash makes the next character literal, and
the first quotation mark that is not literal ends the title: `Page.Spells` has this as a relation, and
`Page.readScalar?` reads it (`Page.readScalar?_eq_some_iff`). To escape a title is to replace first its
backslashes and then its quotation marks (`Page.escapeTitle_eq_replaceAll`). So each quotation mark comes
to stand behind a backslash that is not literal itself, and no title leaves its quotes
(`Page.title_stays_quoted`).
-/

namespace Bookbinder

variable {x y : Char} {t value body rest title page : Text}

/-! ## Replacing a character -/

/-- The text with `new` in the place of each `x`. -/
def replaceAll (x : Char) (new t : Text) : Text := joinWith new (splitWhen (· == x) t)

theorem joinWith_cons_head (sep : Text) (x : Char) (t : Text) (ts : List Text) :
    joinWith sep ((x :: t) :: ts) = x :: joinWith sep (t :: ts) := by
  cases ts <;> rfl

theorem replaceAll_cons_self (x : Char) (new t : Text) :
    replaceAll x new (x :: t) = new ++ replaceAll x new t := by
  obtain ⟨piece, pieces, ht⟩ := List.exists_cons_of_ne_nil (splitWhen_ne_nil (· == x) t)
  rw [replaceAll, replaceAll, splitWhen_cons_of_pos (by simp), ht, joinWith_cons_cons, List.nil_append]

theorem replaceAll_cons_of_ne (h : y ≠ x) (new t : Text) :
    replaceAll x new (y :: t) = y :: replaceAll x new t := by
  obtain ⟨piece, pieces, ht⟩ := List.exists_cons_of_ne_nil (splitWhen_ne_nil (· == x) t)
  rw [replaceAll, replaceAll, splitWhen_cons_of_neg (by simpa using h) ht, ht, joinWith_cons_head]

namespace Page

/-! ## Escaped titles -/

theorem escapeTitle_cons_backslash (t : Text) :
    escapeTitle ('\\' :: t) = '\\' :: '\\' :: escapeTitle t := rfl

theorem escapeTitle_cons_quote (t : Text) : escapeTitle ('"' :: t) = '\\' :: '"' :: escapeTitle t := rfl

theorem escapeTitle_cons_of_ne (hslash : x ≠ '\\') (hquote : x ≠ '"') (t : Text) :
    escapeTitle (x :: t) = x :: escapeTitle t := by
  rw [escapeTitle, List.flatMap_cons, if_neg hslash, if_neg hquote]
  rfl

/-- The backslashes go first, so that those in front of quotation marks are not replaced again. -/
theorem escapeTitle_eq_replaceAll (t : Text) :
    escapeTitle t = replaceAll '"' "\\\"" (replaceAll '\\' "\\\\" t) := by
  have hmark (t : Text) : replaceAll '"' "\\\"" ('\\' :: t) = '\\' :: replaceAll '"' "\\\"" t :=
    replaceAll_cons_of_ne (by decide) _ t
  induction t with
  | nil => rfl
  | cons x t ih =>
    by_cases hslash : x = '\\'
    · rw [hslash, escapeTitle_cons_backslash, replaceAll_cons_self, ih]
      show _ = replaceAll '"' "\\\"" ('\\' :: '\\' :: replaceAll '\\' "\\\\" t)
      rw [hmark, hmark]
    · rw [replaceAll_cons_of_ne hslash]
      by_cases hquote : x = '"'
      · rw [hquote, escapeTitle_cons_quote, replaceAll_cons_self, ih]
        rfl
      · rw [escapeTitle_cons_of_ne hslash hquote, replaceAll_cons_of_ne hquote, ih]

/-! ## Scalars in double quotes -/

/-- What stands for a value between double quotes: a backslash makes the next character literal, and any
other character but the quotation mark is literal as it is. -/
inductive Spells : Text → Text → Prop
  | nil : Spells [] []
  | literal (c : Char) {body value : Text} (h : Spells body value) :
      Spells ('\\' :: c :: body) (c :: value)
  | plain {c : Char} {body value : Text} (hslash : c ≠ '\\') (hquote : c ≠ '"')
      (h : Spells body value) : Spells (c :: body) (c :: value)

/-- The text in double quotes. -/
def inQuotes (body : Text) : Text := '"' :: (body ++ ['"'])

/-- The text is a scalar in double quotes, from the opening to the closing one. -/
def IsScalar (s value : Text) : Prop := ∃ body, s = inQuotes body ∧ Spells body value

/-- The value up to the first quotation mark that is not literal, and what follows the mark. -/
def readQuoted? : Text → Option (Text × Text)
  | [] | ['\\'] => none
  | '"' :: t => some ([], t)
  | '\\' :: c :: t => (readQuoted? t).map fun r => (c :: r.1, r.2)
  | c :: t => (readQuoted? t).map fun r => (c :: r.1, r.2)

/-- The value of the scalar that a text starts with, and what follows the scalar. -/
def readScalar? : Text → Option (Text × Text)
  | '"' :: t => readQuoted? t
  | _ => none

theorem readQuoted?_cons_of_ne (hslash : x ≠ '\\') (hquote : x ≠ '"') (t : Text) :
    readQuoted? (x :: t) = (readQuoted? t).map fun r => (x :: r.1, r.2) := by
  rw [readQuoted?]
  · simp [hslash]
  · simp [hquote]
  · simp [hslash]

/-- What spells a value is read as that value, whatever follows the closing mark. -/
theorem readQuoted?_of_spells (h : Spells body value) (rest : Text) :
    readQuoted? (body ++ '"' :: rest) = some (value, rest) := by
  induction h with
  | nil => rfl
  | literal c _ ih =>
    rw [List.cons_append, List.cons_append, readQuoted?, ih]
    rfl
  | plain hslash hquote _ ih =>
    rw [List.cons_append, readQuoted?_cons_of_ne hslash hquote, ih]
    rfl

theorem exists_spells_of_readQuoted? (h : readQuoted? t = some (value, rest)) :
    ∃ body, t = body ++ '"' :: rest ∧ Spells body value := by
  fun_induction readQuoted? t generalizing value with
  | case1 => cases h
  | case2 => cases h
  | case3 t =>
    cases h
    exact ⟨[], rfl, .nil⟩
  | case4 c t ih =>
    obtain ⟨r, hr, he⟩ := Option.map_eq_some_iff.1 h
    cases he
    obtain ⟨body, rfl, hbody⟩ := ih hr
    exact ⟨'\\' :: c :: body, rfl, .literal c hbody⟩
  | case5 c t hlone hquote hslash ih =>
    obtain ⟨r, hr, he⟩ := Option.map_eq_some_iff.1 h
    cases he
    obtain ⟨body, rfl, hbody⟩ := ih hr
    refine ⟨c :: body, rfl, .plain ?_ hquote hbody⟩
    -- A backslash has a character behind it, if only the closing mark, and makes that one literal.
    intro hc
    obtain ⟨d, t, ht⟩ := List.exists_cons_of_ne_nil (hlone hc)
    exact hslash d t hc ht

theorem inQuotes_append (body rest : Text) :
    inQuotes body ++ rest = '"' :: (body ++ '"' :: rest) := by
  simp [inQuotes]

/-- A text starts with no other scalar than the one that is read. -/
theorem readScalar?_eq_some_iff :
    readScalar? t = some (value, rest) ↔ ∃ s, IsScalar s value ∧ t = s ++ rest := by
  constructor
  · intro h
    unfold readScalar? at h
    split at h
    · obtain ⟨body, rfl, hbody⟩ := exists_spells_of_readQuoted? h
      exact ⟨inQuotes body, ⟨body, rfl, hbody⟩, (inQuotes_append ..).symm⟩
    · cases h
  · rintro ⟨_, ⟨body, rfl, hbody⟩, rfl⟩
    rw [inQuotes_append]
    exact readQuoted?_of_spells hbody rest

/-! ## Titles -/

/-- Each backslash that is put in makes a backslash or a quotation mark of the title literal. -/
theorem spells_escapeTitle (t : Text) : Spells (escapeTitle t) t := by
  induction t with
  | nil => exact .nil
  | cons x t ih =>
    by_cases hslash : x = '\\'
    · rw [hslash, escapeTitle_cons_backslash]
      exact .literal _ ih
    · by_cases hquote : x = '"'
      · rw [hquote, escapeTitle_cons_quote]
        exact .literal _ ih
      · rw [escapeTitle_cons_of_ne hslash hquote]
        exact .plain hslash hquote ih

theorem readScalar?_inQuotes_append (t rest : Text) :
    readScalar? (inQuotes (escapeTitle t) ++ rest) = some (t, rest) :=
  readScalar?_eq_some_iff.2 ⟨_, ⟨_, rfl, spells_escapeTitle t⟩, rfl⟩

theorem escapeTitle_injective : Function.Injective escapeTitle := by
  intro s t h
  have hread := readScalar?_inQuotes_append s []
  rw [h, readScalar?_inQuotes_append t []] at hread
  cases hread
  rfl

/-- The title of a page, and what follows its closing quote. -/
def readTitle? (page : Text) : Option (Text × Text) :=
  (stripHead? "---\ntitle: " page).bind readScalar?

/-- The title of a page ends where the front matter says so. -/
theorem readTitle?_frontMatter_append (title below : Text) :
    readTitle? (frontMatter title ++ below) = some (title, "\n---\n\n".toList ++ below) := by
  -- For any texts, since moving the literals themselves about would spell them out.
  have hregroup {opening key closing after : Text} (ho : opening = key ++ ['"'])
      (hc : closing = '"' :: after) : opening ++ escapeTitle title ++ closing ++ below =
        key ++ (inQuotes (escapeTitle title) ++ (after ++ below)) := by
    simp [ho, hc, inQuotes]
  have hopen : "---\ntitle: \"".toList = "---\ntitle: ".toList ++ ['"'] := by decide
  have hclose : "\"\n---\n\n".toList = '"' :: "\n---\n\n".toList := by decide
  have hpage : frontMatter title ++ below = _ := hregroup hopen hclose
  rw [readTitle?, hpage, stripHead?_append, Option.bind_some]
  exact readScalar?_inQuotes_append title _

/-- A page with that front matter has that title, and below it the front matter ends. -/
theorem exists_readTitle?_eq (h : frontMatter title <+: page) :
    ∃ below, page = frontMatter title ++ below ∧
      readTitle? page = some (title, "\n---\n\n".toList ++ below) := by
  obtain ⟨below, rfl⟩ := h
  exact ⟨below, rfl, readTitle?_frontMatter_append title below⟩

theorem frontMatter_prefix_ofModule (m : ModuleDoc) : frontMatter m.info.name <+: ofModule m := by
  simp only [ofModule, List.append_assoc, List.prefix_append]

theorem frontMatter_prefix_ofSection (title : Text) (modules sections : List PageLink) :
    frontMatter title <+: ofSection title modules sections := by
  simp only [ofSection, List.append_assoc, List.prefix_append]

/-- A scalar is read up to the first quotation mark that is not literal, and no title leaves its quotes
by that. It is escaped by replacing its backslashes and then its quotation marks, and in double quotes the
result is a scalar up to its last character, with the title as its value. So no two titles are escaped
alike. The page of a module and an index page give their title that way: the scalar behind the key has the
name of the module or the title of the section as its value, and behind the scalar the front matter
ends. -/
theorem title_stays_quoted :
    (∀ t value rest, readScalar? t = some (value, rest) ↔ ∃ s, IsScalar s value ∧ t = s ++ rest) ∧
    (∀ t, escapeTitle t = replaceAll '"' "\\\"" (replaceAll '\\' "\\\\" t)) ∧
    (∀ t, readScalar? (inQuotes (escapeTitle t)) = some (t, [])) ∧
    Function.Injective escapeTitle ∧
    (∀ m, ∃ below, ofModule m = frontMatter m.info.name ++ below ∧
      readTitle? (ofModule m) = some (m.info.name, "\n---\n\n".toList ++ below)) ∧
    ∀ title modules sections, ∃ below, ofSection title modules sections = frontMatter title ++ below ∧
      readTitle? (ofSection title modules sections) = some (title, "\n---\n\n".toList ++ below) := by
  refine ⟨fun _ _ _ => readScalar?_eq_some_iff, escapeTitle_eq_replaceAll, fun t => ?_,
    escapeTitle_injective, fun m => exists_readTitle?_eq (frontMatter_prefix_ofModule m),
    fun title modules sections =>
      exists_readTitle?_eq (frontMatter_prefix_ofSection title modules sections)⟩
  have hread := readScalar?_inQuotes_append t []
  rwa [List.append_nil] at hread

/-- If the quotation marks were replaced first, the title would end in the middle. -/
example : readScalar? (inQuotes (replaceAll '\\' "\\\\" (replaceAll '"' "\\\"" "say \"hi\""))) =
    some ("say \\".toList, "hi\\\\\"\"".toList) := by decide

end Page

end Bookbinder
