import Bookbinder.Proofs.Construct.Naming

/-!
# Variables, classes and modules by hand

Each of these is found by one form, and what the form does can be done by going through the text once.

* A variable or a class is declared where one of its words starts, with a blank and a name behind it
  (`DeclarationSite`). The leftmost such place gives the name (`find?_declared_iff`), so `classify_scan`
  says what the rules for variables and classes answer without a form.
* A module has a tag with a blank behind it (`TagSite`), and the first word behind the leftmost tag is its
  name, whatever line that word is in (`classify_moduleTag`).
-/

namespace Bookbinder

open Pattern

variable {openers : List Text} {t u n before rest after : Text}

/-! ## Where a name is declared -/

/-- Between `before` and `rest` stand one of the words and at least one blank. The word starts there, and
`rest` starts with a name. -/
structure DeclarationSite (openers : List Text) (t before rest : Text) : Prop where
  eq : ∃ word ∈ openers, ∃ gap, IsSpace gap ∧ t = before ++ (word ++ (gap ++ rest))
  start : before.getLast?.any isWordChar = false
  name : rest.head?.any isWordChar

/-- No other name is declared further to the left. -/
structure FirstDeclarationSite (openers : List Text) (t before rest : Text) : Prop extends
    DeclarationSite openers t before rest where
  leftmost : ∀ b r, DeclarationSite openers t b r → before.length ≤ b.length

/-- The word of a class. -/
def classWords : List Text := ["class".toList]

theorem IsWord.atBoundary_iff {w : Text} (hw : IsWord w) {b : Option Char} :
    Cursor.atBoundary ⟨b, w ++ u⟩ ↔ b.any isWordChar = false := by
  have hhead : (w ++ u).head?.any isWordChar = true := hw.head?_any
  rw [Cursor.atBoundary, hhead]
  simp

/-- The place and the text behind it say where the name starts. -/
theorem DeclarationSite.rest_eq (hopen : ∀ w ∈ openers, IsWord w)
    (h : DeclarationSite openers (before ++ u) before rest) :
    rest = trimStart (u.dropWhile isWordChar) := by
  obtain ⟨word, hmem, gap, hgap, heq⟩ := h.eq
  have hblank : rest.head?.any isBlank = false := by
    have hname := h.name
    cases rest with
    | nil => rfl
    | cons x rest => exact isBlank_eq_false_of_isWordChar hname
  rw [List.append_cancel_left heq, dropWhile_append_stop (hopen word hmem).2 hgap.head?_not_word,
    trimStart, dropWhile_append_stop hgap.2 hblank]

namespace Forms

/-- A name declared by one of the words. -/
def declared (openers : List Text) : Pattern :=
  boundary ++ anyOf (openers.map literal) ++ space ++ capture word

theorem variableDecl_eq : variableDecl = declared keywords := rfl

theorem classDecl_eq : classDecl = declared classWords := rfl

/-- Where a word starts, the word and the blanks behind it are matched. -/
theorem matches_declared_front (hopen : ∀ w ∈ openers, IsWord w) {b : Option Char} {s r : Text} :
    (∃ c, (boundary ++ anyOf (openers.map literal) ++ space).Matches b s r c) ↔
      ∃ word ∈ openers, ∃ gap, IsSpace gap ∧ s = word ++ gap ∧ b.any isWordChar = false := by
  constructor
  · rintro ⟨_, _, gap, _, _, rfl, ⟨_, _, _, _, rfl, ⟨hb, rfl, -⟩, hword, -⟩, hgap, -⟩
    obtain ⟨_, hp, hm⟩ := matches_anyOf.1 hword
    obtain ⟨w, hw, rfl⟩ := List.mem_map.1 hp
    obtain ⟨rfl, -⟩ := matches_literal.1 hm
    obtain ⟨hne, hblank, -⟩ := matches_some1.1 hgap
    exact ⟨_, hw, gap, ⟨hne, hblank⟩, rfl, (hopen _ hw).atBoundary_iff.1 hb⟩
  · rintro ⟨w, hw, gap, hgap, rfl, hb⟩
    have hboundary : boundary.Matches b [] (w ++ (gap ++ r)) none :=
      ⟨(hopen w hw).atBoundary_iff.2 hb, rfl, rfl⟩
    have hword : (anyOf (openers.map literal)).Matches b w (gap ++ r) none :=
      matches_anyOf.2 ⟨_, List.mem_map_of_mem hw, matches_literal.2 ⟨rfl, rfl⟩⟩
    have hspace : space.Matches (charBefore b w) gap r none :=
      matches_some1.2 ⟨hgap.1, hgap.2, rfl⟩
    exact ⟨_, (Matches.append hboundary hword).append hspace⟩

theorem exists_site_of_matchAt? (hopen : ∀ w ∈ openers, IsWord w)
    (h : (declared openers).matchAt? ⟨before.getLast?, u⟩ = some n) :
    ∃ rest, DeclarationSite openers (before ++ u) before rest ∧ n = rest.takeWhile isWordChar := by
  obtain ⟨s, rest, c, hs, hm, hx⟩ :=
    exists_matches_of_run (boundary ++ anyOf (openers.map literal) ++ space) h
  obtain ⟨w, hw, gap, hgap, rfl, hb⟩ := (matches_declared_front hopen).1 ⟨c, hm⟩
  obtain ⟨rfl, hne⟩ := eq_takeWhile_of_run_capture hx
  have hu : u = w ++ gap ++ rest := hs
  exact ⟨rest, ⟨⟨w, hw, gap, hgap, by rw [hu, List.append_assoc]⟩, hb, takeWhile_ne_nil_iff.1 hne⟩, rfl⟩

theorem matchAt?_isSome_of_site (hopen : ∀ w ∈ openers, IsWord w)
    (h : DeclarationSite openers (before ++ u) before rest) :
    ((declared openers).matchAt? ⟨before.getLast?, u⟩).isSome := by
  obtain ⟨w, hw, gap, hgap, heq⟩ := h.eq
  obtain ⟨c, hfront⟩ := (matches_declared_front hopen).2 ⟨w, hw, gap, hgap, rfl, h.start⟩
  have hne : rest.takeWhile isWordChar ≠ [] := takeWhile_ne_nil_iff.2 h.name
  have hword : (capture word).Matches (charBefore before.getLast? (w ++ gap))
      (rest.takeWhile isWordChar) (rest.dropWhile isWordChar) (some (rest.takeWhile isWordChar)) :=
    ⟨⟨none, matches_some1.2 ⟨hne, fun x hx => List.all_eq_true.1 List.all_takeWhile x hx, rfl⟩⟩, rfl⟩
  refine Pattern.matchAt?_isSome_iff.2 ⟨_, _, _, ?_, Matches.append hfront hword⟩
  rw [List.append_cancel_left heq, List.append_assoc, List.append_assoc,
    List.takeWhile_append_dropWhile]

/-- The form finds the name that is declared furthest to the left. -/
theorem find?_declared_iff (hopen : ∀ w ∈ openers, IsWord w) : (declared openers).find? t = some n ↔
    ∃ before rest, FirstDeclarationSite openers t before rest ∧ n = rest.takeWhile isWordChar := by
  rw [find?_eq_some_iff_leftmost]
  constructor
  · rintro ⟨before, u, rfl, hn, hleft⟩
    obtain ⟨rest, hsite, rfl⟩ := exists_site_of_matchAt? hopen hn
    refine ⟨before, rest, ⟨hsite, fun b r hr => ?_⟩, rfl⟩
    obtain ⟨w, -, gap, -, heq⟩ := hr.eq
    rw [heq] at hr
    exact hleft b _ heq (matchAt?_isSome_of_site hopen hr)
  · rintro ⟨before, rest, ⟨hsite, hleft⟩, rfl⟩
    obtain ⟨w, -, gap, -, rfl⟩ := hsite.eq
    obtain ⟨m, hm⟩ := Option.isSome_iff_exists.1 (matchAt?_isSome_of_site hopen hsite)
    obtain ⟨rest', hsite', rfl⟩ := exists_site_of_matchAt? hopen hm
    rw [hsite'.rest_eq hopen, ← hsite.rest_eq hopen] at hm
    refine ⟨before, _, rfl, hm, fun b u' heq hsome => ?_⟩
    obtain ⟨_, hm'⟩ := Option.isSome_iff_exists.1 hsome
    obtain ⟨r, hr, -⟩ := exists_site_of_matchAt? hopen hm'
    rw [← heq] at hr
    exact hleft b r hr

theorem occursIn_declared_iff (hopen : ∀ w ∈ openers, IsWord w) :
    (declared openers).occursIn t ↔ ∃ before rest, DeclarationSite openers t before rest := by
  constructor
  · intro h
    obtain ⟨n, hn⟩ := Option.isSome_iff_exists.1 h
    obtain ⟨before, rest, hfirst, -⟩ := (find?_declared_iff hopen).1 hn
    exact ⟨before, rest, hfirst.toDeclarationSite⟩
  · rintro ⟨before, rest, hsite⟩
    obtain ⟨w, -, gap, -, rfl⟩ := hsite.eq
    obtain ⟨s, after, c, hs, hm⟩ :=
      Pattern.matchAt?_isSome_iff.1 (matchAt?_isSome_of_site hopen hsite)
    exact occursIn_iff.2 ⟨before, s, after, c, by rw [hs, List.append_assoc], hm⟩

end Forms

/-! ## Variables and classes -/

/-- A name is declared in the text by one of the words. -/
def Declares (openers : List Text) (t : Text) : Prop :=
  ∃ before rest, DeclarationSite openers t before rest

/-- The name declared furthest to the left by one of the words. -/
def FirstDeclared (openers : List Text) (t n : Text) : Prop :=
  ∃ before rest, FirstDeclarationSite openers t before rest ∧ n = rest.takeWhile isWordChar

theorem isWord_of_mem_keywords : ∀ w ∈ keywords, IsWord w := by decide

theorem isWord_of_mem_classWords : ∀ w ∈ classWords, IsWord w := by decide

theorem declares_keywords_iff : Declares keywords t ↔ Forms.variableDecl.occursIn t := by
  rw [Forms.variableDecl_eq, Forms.occursIn_declared_iff isWord_of_mem_keywords]
  rfl

theorem declares_classWords_iff : Declares classWords t ↔ Forms.classDecl.occursIn t := by
  rw [Forms.classDecl_eq, Forms.occursIn_declared_iff isWord_of_mem_classWords]
  rfl

/-- Which rule decides, by the forms that occur in the text. -/
theorem classify_iff (arrowNames : Bool) (t : Text) :
    ((classify arrowNames t).kind = .module ↔ Forms.functionPattern.occursIn t = false ∧
      Forms.moduleTag.occursIn t) ∧
    ((classify arrowNames t).kind = .variableDecl ↔ Forms.functionPattern.occursIn t = false ∧
      Forms.moduleTag.occursIn t = false ∧ Forms.variableDecl.occursIn t) ∧
    ((classify arrowNames t).kind = .classDecl ↔ Forms.functionPattern.occursIn t = false ∧
      Forms.moduleTag.occursIn t = false ∧ ¬ Forms.variableDecl.occursIn t ∧
      Forms.classDecl.occursIn t) ∧
    (classify arrowNames t = .other ↔ Forms.functionPattern.occursIn t = false ∧
      Forms.moduleTag.occursIn t = false ∧ ¬ Forms.variableDecl.occursIn t ∧
      ¬ Forms.classDecl.occursIn t) := by
  rw [classify_eq]
  cases Forms.functionPattern.occursIn t <;> cases Forms.moduleTag.occursIn t <;>
    cases Forms.variableDecl.occursIn t <;> cases Forms.classDecl.occursIn t <;>
      simp [Construct.other]

/-- A text in which neither a function nor a module is found is a variable if and only if one of the words
for variables declares a name in it; otherwise it is a class if and only if the word for classes declares
a name in it; otherwise nothing is known of it. A variable or a class is called by the name declared
furthest to the left. -/
theorem classify_scan (arrowNames : Bool) (t : Text) :
    ((classify arrowNames t).kind = .variableDecl ↔
      (functionRule arrowNames).applies t = false ∧ moduleRule.applies t = false ∧
        Declares keywords t) ∧
    ((classify arrowNames t).kind = .classDecl ↔
      (functionRule arrowNames).applies t = false ∧ moduleRule.applies t = false ∧
        ¬ Declares keywords t ∧ Declares classWords t) ∧
    ((classify arrowNames t).kind = .variableDecl →
      ∃ n, FirstDeclared keywords t n ∧ (classify arrowNames t).name? = some n) ∧
    ((classify arrowNames t).kind = .classDecl →
      ∃ n, FirstDeclared classWords t n ∧ (classify arrowNames t).name? = some n) ∧
    (classify arrowNames t = .other ↔
      (functionRule arrowNames).applies t = false ∧ moduleRule.applies t = false ∧
        ¬ Declares keywords t ∧ ¬ Declares classWords t) := by
  have hfunction : (functionRule arrowNames).applies t = Forms.functionPattern.occursIn t := rfl
  have hmodule : moduleRule.applies t = Forms.moduleTag.occursIn t := rfl
  obtain ⟨-, hvariable, hclass, hother⟩ := classify_iff arrowNames t
  rw [hfunction, hmodule, declares_keywords_iff, declares_classWords_iff]
  refine ⟨hvariable, hclass, fun hk => ?_, fun hk => ?_, hother⟩
  · obtain ⟨n, hn⟩ := Option.isSome_iff_exists.1 (hvariable.1 hk).2.2
    refine ⟨n, (Forms.find?_declared_iff isWord_of_mem_keywords).1 hn, ?_⟩
    rw [classify_name?, hk]
    exact hn
  · obtain ⟨n, hn⟩ := Option.isSome_iff_exists.1 (hclass.1 hk).2.2.2
    refine ⟨n, (Forms.find?_declared_iff isWord_of_mem_classWords).1 hn, ?_⟩
    rw [classify_name?, hk]
    exact hn

/-- Words that start or end like a declaration, and a declaration behind a letter that no name can have. -/
def lookalikes : Text := "constant letterbox; éconst  var1.x = subclass y".toList

/-- A class whose name is in the line below its word. -/
def shapeClass : Text := "export default class\n  Circle_2 extends Base".toList

theorem classify_scan_lookalikes :
    (classify false lookalikes).kind = .variableDecl ∧ FirstDeclared keywords lookalikes "var1".toList ∧
    (classify true shapeClass).kind = .classDecl ∧ ¬ Declares keywords shapeClass ∧
      FirstDeclared classWords shapeClass "Circle_2".toList := by
  have hlook : classify false lookalikes = ⟨.variableDecl, some "var1".toList⟩ := by decide +kernel
  have hshape : classify true shapeClass = ⟨.classDecl, some "Circle_2".toList⟩ := by decide +kernel
  have hscan := classify_scan false lookalikes
  have hscan' := classify_scan true shapeClass
  rw [hlook] at hscan ⊢
  rw [hshape] at hscan' ⊢
  obtain ⟨-, -, hvariable, -, -⟩ := hscan
  obtain ⟨-, hdeclares, -, hclass, -⟩ := hscan'
  obtain ⟨n, hn, hname⟩ := hvariable rfl
  obtain ⟨m, hm, hname'⟩ := hclass rfl
  obtain rfl := Option.some.inj hname
  obtain rfl := Option.some.inj hname'
  exact ⟨rfl, hn, rfl, (hdeclares.1 rfl).2.2.1, hm⟩

/-! ## Modules -/

/-- The tag of a module stands between the two parts, and a blank comes next. -/
structure TagSite (t before after : Text) : Prop where
  eq : t = before ++ ("@module".toList ++ after)
  blank : after.head?.any isBlank

/-- No other tag stands further to the left. -/
structure FirstTagSite (t before after : Text) : Prop extends TagSite t before after where
  leftmost : ∀ b a, TagSite t b a → before.length ≤ b.length

/-- The rest of the line in which the first word behind a tag stands. -/
def tagLine (after : Text) : Text := (trimStart after).takeWhile (· != '\n')

namespace Forms

theorem run_capture_inLine {a : Cursor} {cap : Option Text} :
    (capture (many .inLine .greedy)).run a cap (fun _ c => some (c.getD [])) =
      some (a.rest.takeWhile (· != '\n')) := by
  have hsplit : a.rest = a.rest.takeWhile (· != '\n') ++ a.rest.dropWhile (· != '\n') :=
    List.takeWhile_append_dropWhile.symm
  show runGreedy .inLine (fun b => some (a.textTo b)) a.before a.rest = _
  rw [runGreedy_of_total fun _ => rfl]
  exact congrArg some (Cursor.textTo_eq hsplit)

/-- Behind a tag all blanks are taken, also those at the ends of lines. -/
theorem matchAt?_space_line {b : Option Char} :
    (space ++ capture (many .inLine .greedy)).matchAt? ⟨b, after⟩ =
      if after.head?.any isBlank then some (tagLine after) else none := by
  cases after with
  | nil => rfl
  | cons x after =>
    show (if isBlank x then runGreedy .blank (fun a => (capture (many .inLine .greedy)).run a none
      fun _ c => some (c.getD [])) (some x) after else none) = _
    simp only [run_capture_inLine]
    rw [runGreedy_of_total fun _ => rfl]
    show _ = if isBlank x then some (tagLine (x :: after)) else none
    by_cases hx : isBlank x
    · rw [if_pos hx, if_pos hx, tagLine, trimStart_cons_of_blank hx]
      rfl
    · rw [if_neg hx, if_neg hx]

theorem matchAt?_moduleTag_iff {value : Text} :
    moduleTag.matchAt? ⟨before.getLast?, u⟩ = some value ↔
      ∃ after, TagSite (before ++ u) before after ∧ value = tagLine after := by
  have hassoc : moduleTag.matchAt? ⟨before.getLast?, u⟩ =
      (literal "@module".toList ++ (space ++ capture (many .inLine .greedy))).matchAt?
        ⟨before.getLast?, u⟩ := rfl
  rw [hassoc, matchAt?_literal_append]
  constructor
  · rintro ⟨after, rfl, h⟩
    rw [matchAt?_space_line] at h
    split at h
    · rename_i hblank
      exact ⟨after, ⟨rfl, hblank⟩, (Option.some.inj h).symm⟩
    · cases h
  · rintro ⟨after, hsite, rfl⟩
    exact ⟨after, List.append_cancel_left hsite.eq, by rw [matchAt?_space_line, if_pos hsite.blank]⟩

theorem exists_firstTagSite {value : Text} (h : moduleTag.find? t = some value) :
    ∃ before after, FirstTagSite t before after ∧ value = tagLine after := by
  obtain ⟨before, u, rfl, hn, hleft⟩ := find?_eq_some_iff_leftmost.1 h
  obtain ⟨after, hsite, rfl⟩ := matchAt?_moduleTag_iff.1 hn
  refine ⟨before, after, ⟨hsite, fun b a hb => ?_⟩, rfl⟩
  have heq := hb.eq
  rw [heq] at hb
  exact hleft b _ heq (by rw [matchAt?_moduleTag_iff.2 ⟨a, hb, rfl⟩]; rfl)

end Forms

theorem head?_words_tagLine_of_blank (h : IsBlankRun after) :
    (words (tagLine after)).head? = none := by
  rw [tagLine, trimStart_eq_nil_iff.2 h]
  rfl

/-- The first word behind a tag is the first word of its line. -/
theorem head?_words_tagLine (h : IsFirstWord after n) : (words (tagLine after)).head? = some n := by
  obtain ⟨lead, rest, rfl, hlead, hne, hn, hrest⟩ := h
  have hhead : (n ++ rest).head?.any isBlank = false := by
    obtain ⟨x, n, rfl⟩ := List.exists_cons_of_ne_nil hne
    exact hn x (by simp)
  have hline : ∀ x ∈ n, (x != '\n') = true := by
    intro x hx
    rw [bne_iff_ne]
    rintro rfl
    exact absurd (hn _ hx) (by decide)
  have hsplit : tagLine (lead ++ (n ++ rest)) = n ++ rest.takeWhile (· != '\n') := by
    rw [tagLine, trimStart, dropWhile_append_stop hlead hhead, List.takeWhile_append_of_pos hline]
  have hblank : IsBlankRun [] := by simp [IsBlankRun]
  refine IsFirstWord.head?_words ⟨[], rest.takeWhile (· != '\n'), hsplit, hblank, hne, hn, ?_⟩
  intro x hx
  cases rest with
  | nil => cases hx
  | cons y rest =>
    rw [List.takeWhile_cons] at hx
    split at hx
    · exact hrest x hx
    · cases hx

theorem head?_words_tagLine_iff : (words (tagLine after)).head? = some n ↔ IsFirstWord after n := by
  constructor
  · intro h
    rcases isBlankRun_or_isFirstWord after with hblank | ⟨w, hw⟩
    · rw [head?_words_tagLine_of_blank hblank] at h
      cases h
    · rw [head?_words_tagLine hw] at h
      obtain rfl := Option.some.inj h
      exact hw
  · exact head?_words_tagLine

theorem head?_words_tagLine_eq_none_iff :
    (words (tagLine after)).head? = none ↔ IsBlankRun after := by
  constructor
  · intro h
    rcases isBlankRun_or_isFirstWord after with hblank | ⟨w, hw⟩
    · exact hblank
    · rw [head?_words_tagLine hw] at h
      cases h
  · exact head?_words_tagLine_of_blank

/-- A module is named by the first word behind the leftmost of its tags that have a blank behind them. It
has no name if and only if nothing but blanks stands there. -/
theorem classify_moduleTag {arrowNames : Bool} {t : Text}
    (h : (classify arrowNames t).kind = .module) :
    ∃ before after, FirstTagSite t before after ∧
      ((classify arrowNames t).name? = none ↔ IsBlankRun after) ∧
      ∀ n, (classify arrowNames t).name? = some n ↔ IsFirstWord after n := by
  obtain ⟨hfunction, htag⟩ := (classify_iff arrowNames t).1.1 h
  obtain ⟨value, hvalue⟩ := Option.isSome_iff_exists.1 htag
  obtain ⟨before, after, hfirst, rfl⟩ := Forms.exists_firstTagSite hvalue
  have hname : (classify arrowNames t).name? = (words (tagLine after)).head? := by
    rw [classify_name?, h]
    show moduleTagName? t = _
    rw [moduleTagName?, exportedName?_of_not_function hfunction, hvalue]
    rfl
  refine ⟨before, after, hfirst, ?_, fun n => ?_⟩
  · rw [hname]
    exact head?_words_tagLine_eq_none_iff
  · rw [hname]
    exact head?_words_tagLine_iff

/-- A module whose name is in the line below its tag. -/
def brokenTag : Text := "@modules x @module\n\u2003billing/core helpers\n@module y".toList

/-- A module whose tag is empty. -/
def emptyTag : Text := "see @module \t\n".toList

theorem classify_moduleTag_broken :
    ((classify true brokenTag).kind = .module ∧
      ∃ before after, FirstTagSite brokenTag before after ∧ IsFirstWord after "billing/core".toList) ∧
    ((classify false emptyTag).kind = .module ∧
      ∃ before after, FirstTagSite emptyTag before after ∧ IsBlankRun after) := by
  have hb : (classify true brokenTag).kind = .module := by decide +kernel
  have he : (classify false emptyTag).kind = .module := by decide +kernel
  obtain ⟨before, after, hfirst, -, hname⟩ := classify_moduleTag hb
  obtain ⟨before', after', hfirst', hnone, -⟩ := classify_moduleTag he
  refine ⟨⟨hb, before, after, hfirst, (hname _).1 ?_⟩, he, before', after', hfirst', hnone.1 ?_⟩
  · decide +kernel
  · decide +kernel

end Bookbinder
