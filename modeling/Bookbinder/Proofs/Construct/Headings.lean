import Bookbinder.Proofs.Construct.Arrows
import Bookbinder.Proofs.Construct.Naming

/-!
# Headings of functions

The heading of a function is the word `function` and a name, perhaps behind `async` and behind the words
of an export (`FunctionHeading`). Whatever stands behind it, the search for a name ends at the heading:
no form matches in the words in front of it (`failsWithin_leadText`), and where it starts the first form
of all does (`matchAt?_functionName_heading`). So the heading gives the name, unless an export or an
arrow further on takes its place (`classify_heading`).
-/

namespace Bookbinder

open Pattern

variable {b before : Option Char} {g n r s t u y tail after : Text} {c : Option Text}

/-! ## Headings -/

/-- The words of an export in front of a function. -/
def exportLeads : List (List Text) := [[], ["export".toList], ["export".toList, "default".toList]]

/-- Words, each with the blanks behind it. -/
def leadText (lead : List (Text × Text)) : Text := lead.flatMap fun p => p.1 ++ p.2

/-- The heading of a function, up to its list of parameters. -/
structure FunctionHeading where
  /-- The words of the export, each with the blanks behind it. -/
  lead : List (Text × Text)
  /-- The blanks behind `async`, where the function is marked so. -/
  async? : Option Text
  /-- The blanks in front of the name. -/
  space : Text
  name : Text
  words_mem : lead.map Prod.fst ∈ exportLeads
  isSpace_lead : ∀ p ∈ lead, IsSpace p.2
  isSpace_async : ∀ w ∈ async?, IsSpace w
  isSpace : IsSpace space
  isWord : IsWord name

namespace FunctionHeading

/-- The mark `async` and the blanks behind it. -/
def mark (h : FunctionHeading) : List (Text × Text) :=
  h.async?.toList.map fun w => ("async".toList, w)

/-- The heading as it is written. -/
def text (h : FunctionHeading) : Text :=
  leadText (h.lead ++ h.mark) ++ ("function".toList ++ (h.space ++ h.name))

/-- The words that may stand in front of the keyword. -/
def leadWords : List Text := ["export".toList, "default".toList, "async".toList]

theorem lead_mem (h : FunctionHeading) {p : Text × Text} (hp : p ∈ h.lead) :
    p.1 ∈ ["export".toList, "default".toList] := by
  have hleads : ∀ ws ∈ exportLeads, ∀ w ∈ ws, w ∈ ["export".toList, "default".toList] := by decide
  exact hleads _ h.words_mem _ (List.mem_map_of_mem hp)

/-- In front of the keyword stand known words with blanks behind them. -/
theorem leadWords_mem (h : FunctionHeading) :
    ∀ p ∈ h.lead ++ h.mark, p.1 ∈ leadWords ∧ IsSpace p.2 := by
  intro p hp
  rcases List.mem_append.1 hp with hp | hp
  · have hmem : ∀ w ∈ ["export".toList, "default".toList], w ∈ leadWords := by decide
    exact ⟨hmem _ (h.lead_mem hp), h.isSpace_lead p hp⟩
  · obtain ⟨w, hw, rfl⟩ := List.mem_map.1 hp
    have hasync : "async".toList ∈ leadWords := by decide
    exact ⟨hasync, h.isSpace_async w (by simpa using hw)⟩

end FunctionHeading

/-! ## Words in front -/

theorem leadText_cons (p : Text × Text) (lead : List (Text × Text)) :
    leadText (p :: lead) = p.1 ++ (p.2 ++ leadText lead) := by
  simp [leadText]

theorem leadText_append (lead lead' : List (Text × Text)) :
    leadText (lead ++ lead') = leadText lead ++ leadText lead' :=
  List.flatMap_append

/-- Behind the words, as at the start of the text, a new word may start. -/
theorem getLast?_leadText {lead : List (Text × Text)} (h : ∀ p ∈ lead, IsSpace p.2) :
    (leadText lead).getLast?.any isWordChar = false := by
  rcases List.eq_nil_or_concat' lead with rfl | ⟨front, p, rfl⟩
  · rfl
  · obtain ⟨hne, hblank⟩ := h p (by simp)
    have htext : leadText (front ++ [p]) = (leadText front ++ p.1) ++ p.2 := by
      rw [leadText_append, leadText_cons]
      simp [leadText]
    rw [htext, List.getLast?_append, List.getLast?_eq_some_getLast hne]
    exact isWordChar_of_isBlank (hblank _ (List.getLast_mem hne))

theorem head?_leadText {lead : List (Text × Text)} (h : ∀ p ∈ lead, IsWord p.1)
    (hr : r.head?.any isWordChar) : (leadText lead ++ r).head?.any isWordChar := by
  cases lead with
  | nil => exact hr
  | cons p lead =>
    rw [leadText_cons, List.append_assoc]
    exact (h p (by simp)).head?_any

namespace Forms

/-- The words that a naming form may start with. -/
def nameKeywords : List Text := ["async".toList, "function".toList, "const".toList]

/-- No naming form matches a word that blanks and another word follow, unless it is one of the keywords. -/
theorem matchAt?_functionName_eq_none (hy : ∀ x ∈ y, isWordChar x) (hg : IsSpace g)
    (hr : r.head?.any isWordChar) (hne : y ∉ nameKeywords) :
    functionName.matchAt? ⟨b, y ++ (g ++ r)⟩ = none := by
  have hblank : r.head?.any isBlank = false := by
    cases r with
    | nil => rfl
    | cons x r => exact isBlank_eq_false_of_isWordChar hr
  simp only [nameKeywords, List.mem_cons, List.not_mem_nil, or_false, not_or] at hne
  obtain ⟨hasync, hfunction, hconst⟩ := hne
  rw [matchAt?_functionName_eq hy hg hblank (absurd · hasync) (absurd · hfunction) (absurd · hconst)]
  exact matchAt?_anyOf_eq_none (matchAt?_assigned_eq_none hy hg hr)

/-- No naming form matches in a word and the blanks behind it, if no end of the word is a keyword. -/
theorem failsWithin_word (hy : IsWord y) (hne : ∀ z ∈ y.tails, z ∉ nameKeywords) (hg : IsSpace g)
    (hr : r.head?.any isWordChar) : FailsWithin functionName.matchAt? b (y ++ g) r := by
  intro a d had hd
  rcases List.append_eq_append_iff.1 had with ⟨m, rfl, rfl⟩ | ⟨m, rfl, rfl⟩
  · -- The place is in the blanks, and the end of the word there is empty.
    have hspace : IsSpace d := ⟨hd, fun x hx => hg.2 x (by simp [hx])⟩
    exact matchAt?_functionName_eq_none (y := []) (by simp) hspace hr (by decide)
  · rw [List.append_assoc]
    have hword : ∀ x ∈ m, isWordChar x := fun x hx => hy.2 x (by simp [hx])
    exact matchAt?_functionName_eq_none hword hg hr (hne m ((List.mem_tails _ _).2 ⟨a, rfl⟩))

theorem failsWithin_leadText {lead : List (Text × Text)}
    (h : ∀ p ∈ lead, (IsWord p.1 ∧ ∀ z ∈ p.1.tails, z ∉ nameKeywords) ∧ IsSpace p.2)
    (hr : r.head?.any isWordChar) : FailsWithin functionName.matchAt? b (leadText lead) r := by
  induction lead generalizing b with
  | nil => exact failsWithin_nil
  | cons p lead ih =>
    obtain ⟨⟨hword, htails⟩, hspace⟩ := h p (by simp)
    have hrest : ∀ q ∈ lead, (IsWord q.1 ∧ ∀ z ∈ q.1.tails, z ∉ nameKeywords) ∧ IsSpace q.2 :=
      fun q hq => h q (by simp [hq])
    rw [leadText_cons, ← List.append_assoc, failsWithin_append]
    refine ⟨failsWithin_word hword htails hspace ?_, ih hrest⟩
    exact head?_leadText (fun q hq => (hrest q hq).1.1) hr

/-! ## The heading itself -/

theorem matchAt?_keyword_name (hg : IsSpace g) (hn : IsWord n) :
    ("function" ++ (space ++ capture word) : Pattern).matchAt?
      ⟨b, "function".toList ++ (g ++ (n ++ '(' :: tail))⟩ = some n := by
  refine (run_keyword refuses_captureWord hg hn.head?_not_blank).trans ?_
  exact matchAt?_capture_some1 hn.1 hn.2 (by rfl)

/-- Where a heading starts, perhaps with `async`, the first of the naming forms captures its name. -/
theorem matchAt?_functionName_heading {async? : Option Text} (ha : ∀ w ∈ async?, IsSpace w)
    (hg : IsSpace g) (hn : IsWord n) :
    functionName.matchAt? ⟨b, leadText (async?.toList.map fun w => ("async".toList, w)) ++
      ("function".toList ++ (g ++ (n ++ '(' :: tail)))⟩ = some n := by
  have hform : (optional ("async" ++ space) ++ "function" ++ space ++ capture word : Pattern).matchAt?
      ⟨b, leadText (async?.toList.map fun w => ("async".toList, w)) ++
        ("function".toList ++ (g ++ (n ++ '(' :: tail)))⟩ = some n := by
    simp only [matchAt?, run_append, run_optional]
    cases async? with
    | none =>
      have hnone : ¬ "async".toList <+: "function".toList ++ (g ++ (n ++ '(' :: tail)) := by
        rintro ⟨z, hz⟩
        exact absurd (List.cons.inj hz).1 (by decide)
      show ((literal "async".toList).run ⟨b, "function".toList ++ (g ++ (n ++ '(' :: tail))⟩ none _).or _ = _
      rw [run_literal_eq_none hnone, Option.none_or]
      exact matchAt?_keyword_name (b := b) hg hn
    | some w =>
      have hasync : leadText [("async".toList, w)] ++ ("function".toList ++ (g ++ (n ++ '(' :: tail))) =
          "async".toList ++ (w ++ ("function".toList ++ (g ++ (n ++ '(' :: tail)))) := by
        simp [leadText]
      show ((literal "async".toList).run ⟨b, leadText [("async".toList, w)] ++ _⟩ none _).or _ = _
      rw [hasync, run_keyword (refuses_literal (by decide)) (ha w rfl) (by rfl)]
      exact congrArg (Option.or · _) (matchAt?_keyword_name (b := w.getLast?) hg hn)
  rw [functionName, functionNameForms, matchAt?_anyOf_cons, hform, Option.some_or]

/-! ## No export -/

theorem arrow_infix_of_matches {p : Pattern} (h : (p ++ arrow).Matches before s after c) :
    "=>".toList <:+: s := by
  obtain ⟨s₁, _, _, _, rfl, -, ⟨w, e, _, _, rfl, -, he, -⟩, -⟩ := h
  obtain ⟨rfl, -⟩ := matches_literal.1 he
  exact ⟨s₁ ++ w, [], by simp⟩

/-- An export stands at the start of the text, or there is an arrow in it. -/
theorem start_or_arrow_of_matches (h : exportName.Matches before s after c) :
    before = none ∧ "exports.".toList <+: s ∨ "=>".toList <:+: s := by
  obtain ⟨form, hf, hm⟩ := matches_anyOf.1 h
  simp only [exportForms, List.mem_cons, List.not_mem_nil, or_false] at hf
  rcases hf with rfl | rfl | rfl
  · simp only [matches_append_assoc] at hm
    obtain ⟨_, _, _, _, rfl, ⟨hstart, rfl, -⟩, ⟨e, _, _, _, rfl, he, -⟩, -⟩ := hm
    obtain ⟨rfl, -⟩ := matches_literal.1 he
    exact .inl ⟨hstart, List.prefix_append ..⟩
  · exact .inr (arrow_infix_of_matches hm)
  · exact .inr (arrow_infix_of_matches hm)

theorem exportName_occursIn_of_no_arrow (hstart : ¬ "exports.".toList <+: t)
    (harrow : ¬ "=>".toList <:+: t) : exportName.occursIn t = false := by
  rw [Bool.eq_false_iff]
  intro h
  obtain ⟨pre, s, post, c, rfl, hm⟩ := occursIn_iff.1 h
  rcases start_or_arrow_of_matches hm with ⟨hpre, hs⟩ | hs
  · obtain rfl := List.getLast?_eq_none_iff.1 hpre
    exact hstart (hs.trans (List.prefix_append ..))
  · exact harrow (hs.trans ⟨pre, post, rfl⟩)

theorem exportName_occursIn_of_not_infix (h : ¬ "exports".toList <:+: t) :
    exportName.occursIn t = false := by
  rw [Bool.eq_false_iff]
  intro hx
  obtain ⟨pre, s, post, c, rfl, hm⟩ := occursIn_iff.1 hx
  obtain ⟨mark, n, ⟨w₁, w₂, value, rfl, -⟩, -⟩ := isExport_of_matches hm
  exact h ⟨pre, mark :: (n ++ (w₁ ++ '=' :: (w₂ ++ value))) ++ post, by simp⟩

end Forms

/-! ## Texts that start with a heading -/

namespace FunctionHeading

open Forms

variable (h : FunctionHeading)

theorem text_append (tail : Text) : h.text ++ tail =
    leadText h.lead ++ (leadText h.mark ++ ("function".toList ++ (h.space ++ (h.name ++ tail)))) := by
  simp [text, leadText_append]

theorem standsIn_function (tail : Text) : StandsIn "function".toList (h.text ++ tail) := by
  refine ⟨leadText (h.lead ++ h.mark), h.space ++ (h.name ++ tail), ?_, by decide, ?_, ?_, ?_⟩
  · simp [text]
  · exact List.all_eq_true.1 (by decide)
  · exact getLast?_leadText fun p hp => (h.leadWords_mem p hp).2
  · exact h.isSpace.head?_not_word

/-- The search for a name ends at the heading. -/
theorem find?_functionName (tail : Text) :
    functionName.find? (h.text ++ '(' :: tail) = some h.name := by
  have hwords : ∀ w ∈ ["export".toList, "default".toList], IsWord w ∧ ∀ z ∈ w.tails, z ∉ nameKeywords := by
    decide +kernel
  rw [text_append]
  refine find?_eq_some_iff.2 ⟨_, _, rfl, ?_, ?_⟩
  · exact matchAt?_functionName_heading h.isSpace_async h.isSpace h.isWord
  · refine failsWithin_leadText (fun p hp => ⟨hwords _ (h.lead_mem hp), h.isSpace_lead p hp⟩) ?_
    refine head?_leadText (fun p hp => ?_) (by rfl)
    obtain ⟨w, -, rfl⟩ := List.mem_map.1 hp
    exact (by decide : IsWord "async".toList)

theorem isWordChar_or_isBlank {x : Char} (hx : x ∈ h.text) : isWordChar x ∨ isBlank x := by
  have hwords : ∀ w ∈ leadWords, IsWord w := by decide
  have hkeyword : IsWord "function".toList := by decide
  simp only [text, leadText, List.mem_append, List.mem_flatMap] at hx
  rcases hx with ⟨p, hp, hx | hx⟩ | hx | hx | hx
  · exact .inl ((hwords _ (h.leadWords_mem p (List.mem_append.2 hp)).1).2 x hx)
  · exact .inr ((h.leadWords_mem p (List.mem_append.2 hp)).2.2 x hx)
  · exact .inl (hkeyword.2 x hx)
  · exact .inr (h.isSpace.2 x hx)
  · exact .inl (h.isWord.2 x hx)

/-- An arrow can only stand behind the heading. -/
theorem arrow_infix (ha : "=>".toList <:+: h.text ++ '(' :: tail) : "=>".toList <:+: tail := by
  rcases infix_of_infix_append_cons (by decide) ha with ha | ha
  · have hmem : '=' ∈ h.text := ha.mem (by decide)
    exact absurd (h.isWordChar_or_isBlank hmem) (by decide)
  · exact ha

/-- The first word of the text is no name that things are exported under. -/
theorem not_prefix_exports (tail : Text) : ¬ "exports.".toList <+: h.text ++ tail := by
  have hwords : ∀ w ∈ leadWords, ¬ "exports.".toList <+: w := by decide
  intro hp
  cases hlead : h.lead ++ h.mark with
  | nil =>
    have htext : h.text ++ tail = "function".toList ++ (h.space ++ (h.name ++ tail)) := by
      rw [text, hlead]
      simp [leadText]
    rw [htext] at hp
    exact absurd (h.isSpace.prefix_of_prefix_append (by decide) hp) (by decide)
  | cons p lead =>
    have htext : h.text ++ tail =
        p.1 ++ (p.2 ++ (leadText lead ++ ("function".toList ++ (h.space ++ (h.name ++ tail))))) := by
      rw [text, hlead, leadText_cons]
      simp
    obtain ⟨hmem, hspace⟩ := h.leadWords_mem p (by rw [hlead]; simp)
    rw [htext] at hp
    exact hwords _ hmem (hspace.prefix_of_prefix_append (by decide) hp)

/-- Where nothing is exported, the heading gives the name when arrows give none. -/
theorem classify_of_no_export (hx : exportName.occursIn (h.text ++ '(' :: tail) = false) :
    classify false (h.text ++ '(' :: tail) = ⟨.function, some h.name⟩ := by
  have hpattern : functionPattern.occursIn (h.text ++ '(' :: tail) :=
    occursIn_anyOf.2 ⟨_, List.mem_of_getElem? (i := 0) rfl,
      occursIn_functionKeyword_iff.2 (h.standsIn_function _)⟩
  have hname : functionName? false (h.text ++ '(' :: tail) = some h.name := by
    rw [functionName?, h.find?_functionName, exportedName?_eq_none hx]
    show nonEmpty? h.name = some h.name
    rw [nonEmpty?_eq, if_neg h.isWord.1]
  rw [classify_eq, if_pos hpattern, hname]

end FunctionHeading

/-- A text that starts with the heading of a function is a function of that name, whatever its body is:
when arrows give names, if there is no arrow behind the heading, and when they give none, if the letters
`exports` do not stand in the text. -/
theorem classify_heading (h : FunctionHeading) (tail : Text) :
    (¬ "=>".toList <:+: tail →
      classify true (h.text ++ '(' :: tail) = ⟨.function, some h.name⟩) ∧
    (¬ "exports".toList <:+: h.text ++ '(' :: tail →
      classify false (h.text ++ '(' :: tail) = ⟨.function, some h.name⟩) := by
  constructor
  · intro harrow
    have harrow : ¬ "=>".toList <:+: h.text ++ '(' :: tail := mt h.arrow_infix harrow
    have hlist : ¬ Forms.arrowParams.occursIn (h.text ++ '(' :: tail) := by
      intro hl
      obtain ⟨before, params, after, heq, w, rest, -, rfl⟩ := Forms.occursIn_arrowParams_iff.1 hl
      exact harrow ⟨before ++ '(' :: (params ++ ')' :: w), rest, by rw [heq]; simp⟩
    have hx := Forms.exportName_occursIn_of_no_arrow (h.not_prefix_exports _) harrow
    rw [← h.classify_of_no_export hx, classify_eq, classify_eq, functionName?_of_no_arrow hlist]
  · intro hexports
    exact h.classify_of_no_export (Forms.exportName_occursIn_of_not_infix hexports)

/-- A function that is exported by default, its heading broken over lines. -/
def brokenFunctionHeading : FunctionHeading where
  lead := [("export".toList, " ".toList), ("default".toList, "\n\t".toList)]
  async? := some "  ".toList
  space := "\n".toList
  name := "function1".toList
  words_mem := by decide
  isSpace_lead := by decide
  isSpace_async := by decide
  isSpace := by decide
  isWord := by decide

/-- A function expression in the body does not count when arrows give names, an arrow in the body when
they give none. -/
theorem classify_heading_broken :
    (¬ "=>".toList <:+: "a) \x7bexports.b = function (c) \x7b\x7d\x7d".toList ∧
      classify true ("export default\n\tasync  function\nfunction1".toList ++
        '(' :: "a) \x7bexports.b = function (c) \x7b\x7d\x7d".toList) =
        ⟨.function, some "function1".toList⟩) ∧
    (¬ "exports".toList <:+: "export default\n\tasync  function\nfunction1".toList ++
        '(' :: "a) \x7bconst b = (c) => c\x7d".toList ∧
      classify false ("export default\n\tasync  function\nfunction1".toList ++
        '(' :: "a) \x7bconst b = (c) => c\x7d".toList) =
        ⟨.function, some "function1".toList⟩) := by
  have htext : brokenFunctionHeading.text = "export default\n\tasync  function\nfunction1".toList := by
    decide +kernel
  have harrow : ¬ "=>".toList <:+: "a) \x7bexports.b = function (c) \x7b\x7d\x7d".toList := by
    decide +kernel
  have hexports : ¬ "exports".toList <:+: "export default\n\tasync  function\nfunction1".toList ++
      '(' :: "a) \x7bconst b = (c) => c\x7d".toList := by decide +kernel
  rw [← htext] at hexports ⊢
  exact ⟨⟨harrow, (classify_heading brokenFunctionHeading _).1 harrow⟩,
    ⟨hexports, (classify_heading brokenFunctionHeading _).2 hexports⟩⟩

end Bookbinder
