import Bookbinder.Proofs.Construct.Arrows
import Bookbinder.Proofs.Construct.Naming
import Mathlib.Data.List.Basic

/-!
# Functions set to a declared name

A declaration gives a name to an arrow function or to a function expression (`FunctionValue`). When arrows
give no names, the declared name is the function's name for a plain arrow and for an expression without a
name of its own. For an arrow marked `async` it is so only behind `const` with a list of parameters in one
line, and for an expression with a name of its own it never is: there the list of parameters is taken
(`classify_declaration`, and `classify_asyncBehindLet` for one that goes wrong).
-/

namespace Bookbinder

open Pattern

/-- The ways to write a function as a value. -/
inductive FunctionValue where
  | arrow
  | asyncArrow
  | expression
  | namedExpression (own : Text) (isWord : IsWord own)

namespace FunctionValue

/-- What stands in front of the list of parameters. -/
def lead : FunctionValue → Text
  | arrow => []
  | asyncArrow => "async".toList ++ [' ']
  | expression => "function".toList ++ [' ']
  | namedExpression own _ => "function".toList ++ ' ' :: own

/-- What stands between the list of parameters and the body. -/
def sign : FunctionValue → Text
  | arrow | asyncArrow => [' '] ++ "=>".toList ++ [' ']
  | expression | namedExpression .. => [' ']

/-- The value as it is written. -/
def text (v : FunctionValue) (params tail : Text) : Text :=
  v.lead ++ '(' :: (params ++ ')' :: (v.sign ++ tail))

/-- A function that is declared with the value is named by the declaration, when arrows give no names. -/
def KeepsName (v : FunctionValue) (keyword params : Text) : Prop :=
  match v with
  | arrow | expression => True
  | asyncArrow => keyword = "const".toList ∧ '\n' ∉ params
  | namedExpression .. => False

instance (v : FunctionValue) (keyword params : Text) : Decidable (v.KeepsName keyword params) :=
  match v with
  | arrow | expression => inferInstanceAs (Decidable True)
  | asyncArrow => inferInstanceAs (Decidable (keyword = "const".toList ∧ '\n' ∉ params))
  | namedExpression .. => inferInstanceAs (Decidable False)

end FunctionValue

variable {n w params tail : Text}

/-! ## Values -/

/-- Neither parenthesis stands in the text. -/
def HasNoParens (t : Text) : Prop := '(' ∉ t ∧ ')' ∉ t

instance (t : Text) : Decidable (HasNoParens t) := inferInstanceAs (Decidable ('(' ∉ t ∧ ')' ∉ t))

theorem HasNoParens.append {s t : Text} (hs : HasNoParens s) (ht : HasNoParens t) :
    HasNoParens (s ++ t) := by
  simp [HasNoParens, hs.1, hs.2, ht.1, ht.2]

theorem IsWord.hasNoParens (hn : IsWord n) : HasNoParens n :=
  ⟨hn.not_mem (by decide), hn.not_mem (by decide)⟩

namespace FunctionValue

theorem hasNoParens_lead (v : FunctionValue) : HasNoParens v.lead := by
  cases v with
  | arrow | asyncArrow | expression => decide
  | namedExpression own hown =>
    have hkeyword : HasNoParens ("function".toList ++ [' ']) := by decide
    have happend := hkeyword.append hown.hasNoParens
    rwa [List.append_assoc] at happend

theorem hasNoParens_sign (v : FunctionValue) : HasNoParens v.sign := by
  cases v with
  | arrow | asyncArrow => exact (by decide : HasNoParens ([' '] ++ "=>".toList ++ [' ']))
  | expression | namedExpression => exact (by decide : HasNoParens [' '])

theorem sign_not_mem_lead (v : FunctionValue) : '=' ∉ v.lead := by
  cases v with
  | arrow | asyncArrow | expression => decide
  | namedExpression own hown =>
    have hkeyword : '=' ∉ "function".toList := by decide
    have hsign : '=' ∉ ' ' :: own := by simp [hown.not_mem (by decide : isWordChar '=' = false)]
    intro hmem
    exact (List.mem_append.1 hmem).elim hkeyword hsign

/-- The character that the value starts with. -/
def firstLetter : FunctionValue → Char
  | arrow => '('
  | asyncArrow => 'a'
  | expression | namedExpression .. => 'f'

theorem head?_text (v : FunctionValue) (params tail : Text) :
    (v.text params tail).head? = some v.firstLetter := by
  cases v <;> rfl

theorem head?_text_not_blank (v : FunctionValue) (params tail : Text) :
    (v.text params tail).head?.any isBlank = false := by
  rw [head?_text]
  cases v with
  | arrow | asyncArrow | expression => decide
  | namedExpression => exact (by decide : isBlank 'f' = false)

end FunctionValue

section Values

open FunctionValue Forms

theorem text_eq {v : FunctionValue} {m rest : Text} (hsign : v.sign ++ tail = m ++ rest) :
    v.text params tail = v.lead ++ '(' :: (params ++ ')' :: m) ++ rest := by
  rw [text, hsign]
  simp

/-- A form matches a value from its start to the closing parenthesis or to the arrow. -/
theorem matchAt?_text_isSome {v : FunctionValue} {q : Pattern} {L : Text → Prop} {b : Option Char}
    {m rest : Text} (hL : q.HasLanguage L) (hsign : v.sign ++ tail = m ++ rest)
    (h : L (v.lead ++ '(' :: (params ++ ')' :: m))) : (q.matchAt? ⟨b, v.text params tail⟩).isSome :=
  hL.matchAt?_isSome_iff.2 ⟨_, rest, text_eq hsign, h⟩

variable {b : Option Char} (hp : HasNoParens params) (ht : HasNoParens tail)
include hp ht

theorem open_not_mem_rest (v : FunctionValue) : '(' ∉ params ++ ')' :: (v.sign ++ tail) := by
  simp [hp.1, ht.1, v.hasNoParens_sign.1]

/-- A value holds one list only. -/
theorem eq_of_text_eq {v : FunctionValue} {a m d : Text}
    (h : v.text params tail = a ++ '(' :: (m ++ ')' :: d)) : m = params := by
  obtain ⟨-, -, h⟩ := (List.append_cons_inj_of_notMem v.hasNoParens_lead.1
    (open_not_mem_rest hp ht v)).1 h
  exact ((List.append_cons_inj_of_notMem hp.2 (v.hasNoParens_sign.append ht).2).1 h).1.symm

/-- A form that captures a list captures the only list of the value. -/
theorem matchAt?_list_text {v : FunctionValue} {p z : Pattern} {P Z : Text → Prop} {m rest : Text}
    (hplain : p.IsPlain) (hz : z.IsPlain) (hP : p.HasLanguage P) (hZ : z.HasLanguage Z)
    (hclose : ∀ s, Z s → ∃ d, s = ')' :: d) (hsign : v.sign ++ tail = m ++ rest)
    (hlead : P v.lead) (hm : Z (')' :: m)) :
    (p ++ ("(" ++ (capture inside ++ z))).matchAt? ⟨b, v.text params tail⟩ = some params := by
  have hlanguage := hP.append ((hasLanguage_literal "(".toList).append
    (hasLanguage_inside.capture.append hZ))
  obtain ⟨n, hn⟩ := Option.isSome_iff_exists.1 (matchAt?_text_isSome (b := b) hlanguage hsign
    ⟨_, _, rfl, hlead, _, _, rfl, rfl, params, _, rfl, trivial, hm⟩)
  obtain ⟨s, after, c, heq, hs, hx⟩ := exists_matches_of_run _ hn
  obtain ⟨_, x, _, _, rfl, ⟨a, o, _, _, rfl, -, ho, -⟩, -, hd, rfl⟩ :=
    Matches.capture_between (isPlain_append.2 ⟨hplain, isPlain_literal _⟩) hz
      (matches_append_assoc.2 hs)
  obtain ⟨rfl, -⟩ := matches_literal.1 ho
  obtain ⟨d, rfl⟩ := hclose _ ((hZ _ _ _).1 ⟨_, hd⟩)
  obtain rfl : x = n := Option.some.inj hx
  have heq : v.text params tail = a ++ '(' :: (x ++ ')' :: (d ++ after)) := by simpa using heq
  rw [hn, eq_of_text_eq hp ht heq]

theorem asyncLine_isSome_iff :
    (asyncLine.matchAt? ⟨b, asyncArrow.text params tail⟩).isSome ↔ '\n' ∉ params := by
  constructor
  · intro h
    obtain ⟨_, after, heq, w, x, w', -, hx, -, rfl⟩ := hasLanguage_asyncLine.matchAt?_isSome_iff.1 h
    have heq : asyncArrow.text params tail =
        ("async".toList ++ w) ++ '(' :: (x ++ ')' :: (w' ++ ("=>".toList ++ after))) := by
      rw [heq]
      simp only [List.append_assoc, List.cons_append]
    rwa [← eq_of_text_eq hp ht heq]
  · intro hx
    exact matchAt?_text_isSome hasLanguage_asyncLine (List.append_assoc ..)
      ⟨[' '], params, [' '], isBlankRun_blank, hx, isBlankRun_blank, List.append_assoc ..⟩

theorem matchAt?_asyncValue : asyncValue.matchAt? ⟨b, asyncArrow.text params tail⟩ = some params := by
  have hplain : ("async" ++ gap : Pattern).IsPlain := ⟨isPlain_literal _, trivial⟩
  have hz : (")" ++ Forms.arrow : Pattern).IsPlain := ⟨isPlain_literal _, isPlain_arrow⟩
  refine matchAt?_list_text (b := b) (v := asyncArrow) hp ht hplain hz
    ((hasLanguage_literal _).append hasLanguage_gap) hasLanguage_closing ?_ (List.append_assoc ..)
    ⟨_, _, rfl, rfl, isBlankRun_blank⟩ ⟨[' '], isBlankRun_blank, rfl⟩
  rintro _ ⟨w, -, rfl⟩
  exact ⟨_, rfl⟩

theorem matchAt?_namedValue {own : Text} (hown : IsWord own) :
    namedValue.matchAt? ⟨b, (namedExpression own hown).text params tail⟩ = some params := by
  have hplain : ("function" ++ (gap ++ inside) : Pattern).IsPlain :=
    ⟨isPlain_literal _, trivial, trivial⟩
  refine matchAt?_list_text (b := b) (v := namedExpression own hown) (m := []) hp ht hplain
    (isPlain_literal ")".toList)
    ((hasLanguage_literal _).append (hasLanguage_gap.append hasLanguage_inside))
    (hasLanguage_literal _) ?_ rfl ⟨_, _, rfl, rfl, [' '], own, rfl, isBlankRun_blank, trivial⟩ rfl
  rintro _ rfl
  exact ⟨_, rfl⟩

omit hp ht in
theorem matchAt?_arrowValue_isSome :
    (arrowValue.matchAt? ⟨b, FunctionValue.arrow.text params tail⟩).isSome :=
  matchAt?_text_isSome ((hasLanguage_literal _).append (hasLanguage_inside.append hasLanguage_closing))
    (List.append_assoc ..)
    ⟨"(".toList, _, rfl, rfl, params, _, rfl, trivial, [' '], isBlankRun_blank, rfl⟩

omit hp ht in
theorem matchAt?_bareValue_isSome :
    (bareValue.matchAt? ⟨b, expression.text params tail⟩).isSome :=
  matchAt?_text_isSome (m := []) ((hasLanguage_literal _).append (hasLanguage_gap.append
    ((hasLanguage_literal _).append (hasLanguage_inside.append (hasLanguage_literal _))))) rfl
    ⟨_, _, List.append_assoc .., rfl, [' '], _, rfl, isBlankRun_blank, _, _, rfl, rfl, params, _, rfl,
      trivial, rfl⟩

omit hp ht in
/-- Behind the keyword of an expression with a name of its own comes no list. -/
theorem matchAt?_bareValue_eq_none {own : Text} (hown : IsWord own) :
    bareValue.matchAt? ⟨b, (namedExpression own hown).text params tail⟩ = none := by
  have htext : (namedExpression own hown).text params tail =
      "function".toList ++ ([' '] ++ (own ++ '(' :: (params ++ ')' :: ([' '] ++ tail)))) :=
    List.append_assoc ..
  rw [htext]
  refine run_literal.trans ((run_gap (refuses_literal (by decide)) isBlankRun_blank
    hown.head?_not_blank).trans ?_)
  apply run_literal_eq_none
  rintro ⟨z, hz⟩
  have hopen := hown.head?_any (r := '(' :: (params ++ ')' :: ([' '] ++ tail)))
  rw [← hz] at hopen
  exact absurd hopen (by decide : ¬ isWordChar '(')

omit hp ht in
/-- A form that starts with another letter does not match the value. -/
theorem matchAt?_text_eq_none {v : FunctionValue} {q : Pattern} (hw : w ≠ [])
    (hhead : some v.firstLetter ≠ w.head?) :
    (literal w ++ q).matchAt? ⟨b, v.text params tail⟩ = none := by
  apply run_literal_eq_none
  rintro ⟨z, hz⟩
  obtain ⟨x, w, rfl⟩ := List.exists_cons_of_ne_nil hw
  refine hhead ?_
  rw [← v.head?_text params tail, ← hz]
  rfl

/-- The form that the value decides, at the declared name. -/
theorem matchAt?_functionName_text (hn : IsWord n) (v : FunctionValue) :
    functionName.matchAt? ⟨b, n ++ ' ' :: '=' :: ' ' :: v.text params tail⟩ =
      some (match v with
        | .arrow | .expression => n
        | .asyncArrow | .namedExpression .. => params) := by
  rw [matchAt?_functionName_name hn (v.head?_text_not_blank params tail)]
  cases v with
  | arrow =>
    have hbare : bareValue.matchAt? ⟨some ' ', FunctionValue.arrow.text params tail⟩ = none :=
      matchAt?_text_eq_none (by decide) (by decide)
    obtain ⟨x, hx⟩ := Option.isSome_iff_exists.1 matchAt?_arrowValue_isSome
    rw [hbare, hx]
    rfl
  | asyncArrow =>
    have hbare : bareValue.matchAt? ⟨some ' ', asyncArrow.text params tail⟩ = none :=
      matchAt?_text_eq_none (by decide) (by decide)
    have harrow : arrowValue.matchAt? ⟨some ' ', asyncArrow.text params tail⟩ = none :=
      matchAt?_text_eq_none (by decide) (by decide)
    rw [hbare, harrow, matchAt?_asyncValue hp ht]
    rfl
  | expression =>
    obtain ⟨x, hx⟩ := Option.isSome_iff_exists.1 matchAt?_bareValue_isSome
    rw [hx]
    rfl
  | namedExpression own hown =>
    have harrow : arrowValue.matchAt? ⟨some ' ', (namedExpression own hown).text params tail⟩ = none :=
      matchAt?_text_eq_none (by decide) (by decide : some 'f' ≠ some '(')
    have hasync : asyncValue.matchAt? ⟨some ' ', (namedExpression own hown).text params tail⟩ = none :=
      matchAt?_text_eq_none (by decide) (by decide : some 'f' ≠ some 'a')
    rw [matchAt?_bareValue_eq_none hown, harrow, hasync, matchAt?_namedValue hp ht hown]
    rfl

/-- The answer of the search in a declaration. -/
theorem find?_functionName_declaration {keyword : Text} (hk : keyword ∈ keywords) (hn : IsWord n)
    (v : FunctionValue) : functionName.find? (declaration keyword n (v.text params tail)) =
      some (if v.KeepsName keyword params then n else params) := by
  have hblank := v.head?_text_not_blank params tail
  have hfind (hconst : keyword = "const".toList →
      asyncLine.matchAt? ⟨some ' ', v.text params tail⟩ = none) :=
    find?_declaration hk hn hblank hconst (matchAt?_functionName_text hp ht hn v)
  cases v with
  | arrow => exact hfind fun _ => matchAt?_text_eq_none (by decide) (by decide)
  | expression => exact hfind fun _ => matchAt?_text_eq_none (by decide) (by decide)
  | namedExpression own hown =>
    exact hfind fun _ => matchAt?_text_eq_none (by decide) (by decide : some 'f' ≠ some 'a')
  | asyncArrow =>
    have hline := asyncLine_isSome_iff (b := some ' ') hp ht
    by_cases h : asyncArrow.KeepsName keyword params
    · obtain ⟨rfl, hx⟩ := h
      rw [find?_declaration_const hn hblank (hline.2 hx), if_pos ⟨rfl, hx⟩]
    · rw [if_neg h]
      refine hfind fun hconst => Option.not_isSome_iff_eq_none.1 fun hsome => ?_
      exact h ⟨hconst, hline.1 hsome⟩

end Values

/-! ## Declarations with a function -/

section Declarations

open FunctionValue Forms

variable {keyword after : Text}

/-- Behind a word character, blanks and the sign, the form of a declared value finds its value. -/
theorem occursIn_declaration {q : Pattern} {L : Text → Prop} (hq : q.HasLanguage L) (hn : IsWord n)
    (hs : L w) :
    (boundary ++ (word ++ (assign ++ q))).occursIn (declaration keyword n (w ++ after)) := by
  refine occursIn_boundary_word_iff.2 ((occursIn_assign_iff hq).2 ?_)
  obtain ⟨m, x, rfl⟩ : ∃ m x, n = m ++ [x] := ⟨_, _, (List.dropLast_concat_getLast hn.1).symm⟩
  exact ⟨keyword ++ ' ' :: m, x, [' '], [' '], w, after, hn.2 x (by simp), isBlankRun_blank,
    isBlankRun_blank, hs, by simp [declaration]⟩

theorem functionPattern_occursIn_declaration (hn : IsWord n) (v : FunctionValue) :
    functionPattern.occursIn (declaration keyword n (v.text params tail)) := by
  have hblank := isBlankRun_blank
  rw [functionPattern, occursIn_anyOf]
  cases v with
  | arrow =>
    refine ⟨_, List.mem_of_getElem? (i := 4) rfl, ?_⟩
    rw [text_eq (v := FunctionValue.arrow) (List.append_assoc ..)]
    simp only [occursIn_append_assoc]
    exact occursIn_declaration hasLanguage_shortList_arrow hn ⟨params, [' '], hblank, rfl⟩
  | asyncArrow =>
    refine ⟨_, List.mem_of_getElem? (i := 5) rfl, ?_⟩
    rw [text_eq (v := asyncArrow) (List.append_assoc ..)]
    simp only [occursIn_append_assoc]
    exact occursIn_declaration ((hasLanguage_literal _).append (hasLanguage_gap.append
      hasLanguage_shortList_arrow)) hn ⟨_, _, List.append_assoc .., rfl, [' '], _, rfl, hblank, params,
        [' '], hblank, rfl⟩
  | expression =>
    refine ⟨_, List.mem_of_getElem? (i := 6) rfl, ?_⟩
    rw [text, List.append_cons]
    simp only [occursIn_append_assoc]
    exact occursIn_declaration hasLanguage_expression hn ⟨[' '], List.append_assoc ..⟩
  | namedExpression own hown =>
    refine ⟨_, List.mem_of_getElem? (i := 6) rfl, ?_⟩
    rw [text, List.append_cons]
    simp only [occursIn_append_assoc]
    exact occursIn_declaration hasLanguage_expression hn ⟨' ' :: own, List.append_assoc ..⟩

/-- An export is a sign with an opening parenthesis behind it, and `exports` in front of it. -/
theorem IsExport.exists_open {mark : Char} (h : IsExport mark n w) :
    ∃ u a d, w = "exports".toList ++ u ++ '=' :: (a ++ '(' :: d) := by
  obtain ⟨w₁, w₂, value, rfl, -, -, ⟨⟨w, params, -, -, rfl⟩, -⟩ | ⟨⟨lead, params, w, -, -, rfl⟩, -⟩⟩ := h
  · exact ⟨mark :: (n ++ w₁), w₂ ++ ("function".toList ++ w), params ++ [')'], by simp⟩
  · exact ⟨mark :: (n ++ w₁), w₂ ++ lead, params ++ ')' :: (w ++ "=>".toList), by simp⟩

/-- Only the sign behind the name has a parenthesis opened behind it. -/
theorem eq_of_declaration_eq {u a d : Text} (hk : keyword ∈ keywords) (hn : IsWord n)
    (hp : HasNoParens params) (ht : HasNoParens tail) (v : FunctionValue)
    (h : declaration keyword n (v.text params tail) = u ++ '=' :: (a ++ '(' :: d)) :
    u = keyword ++ ' ' :: (n ++ [' ']) := by
  obtain ⟨hword, -, -⟩ := forall_keywords keyword hk
  have hsign : isWordChar '=' = false := by decide
  have hlead : '(' ∉ (keyword ++ ' ' :: (n ++ [' '])) ++ '=' :: ' ' :: v.lead := by
    simp [hword.hasNoParens.1, hn.hasNoParens.1, v.hasNoParens_lead.1]
  have hfront : '=' ∉ keyword ++ ' ' :: (n ++ [' ']) := by
    simp [hword.not_mem hsign, hn.not_mem hsign]
  have hback : '=' ∉ ' ' :: v.lead := by simp [v.sign_not_mem_lead]
  have h : ((keyword ++ ' ' :: (n ++ [' '])) ++ '=' :: ' ' :: v.lead) ++
      '(' :: (params ++ ')' :: (v.sign ++ tail)) = (u ++ '=' :: a) ++ '(' :: d := by
    simpa [declaration, text] using h
  obtain ⟨h, -, -⟩ := (List.append_cons_inj_of_notMem hlead (open_not_mem_rest hp ht v)).1 h
  exact ((List.append_cons_inj_of_notMem hfront hback).1 h).1.symm

/-- A declaration is no export unless its name holds the letters of one. -/
theorem exportName_occursIn_declaration (hk : keyword ∈ keywords) (hn : IsWord n)
    (hx : ¬ "exports".toList <:+: n) (hp : HasNoParens params) (ht : HasNoParens tail)
    (v : FunctionValue) :
    exportName.occursIn (declaration keyword n (v.text params tail)) = false := by
  rw [Bool.eq_false_iff]
  intro h
  obtain ⟨before, s, after, c, heq, hm⟩ := occursIn_iff.1 h
  obtain ⟨mark, m, hs, -, -⟩ := isExport_of_matches hm
  obtain ⟨u, a, d, rfl⟩ := hs.exists_open
  have heq : declaration keyword n (v.text params tail) =
      (before ++ ("exports".toList ++ u)) ++ '=' :: (a ++ '(' :: (d ++ after)) := by
    simpa using heq
  -- The letters of an export stand in front of the sign, in the keyword or in the name.
  have hinfix : "exports".toList <:+: keyword ++ ' ' :: (n ++ [' ']) := by
    rw [← eq_of_declaration_eq hk hn hp ht v heq]
    exact ⟨before, u, List.append_assoc ..⟩
  have hblank : ' ' ∉ "exports".toList := by decide
  rcases infix_of_infix_append_cons hblank hinfix with h | h
  · exact (forall_keywords keyword hk).2.1 h
  · rcases infix_of_infix_append_cons hblank h with h | h
    · exact hx h
    · exact absurd h (by decide)

end Declarations

/-- When arrows give no names, a declared function is a function with the declared name, unless its value
is an expression with a name of its own, or an arrow marked `async` that `const` does not declare or
whose parameters go over the end of a line. Then the parameters are its name, if there are any. -/
theorem classify_declaration {keyword n params tail : Text} (hk : keyword ∈ keywords) (hn : IsWord n)
    (hx : ¬ "exports".toList <:+: n) (hp : HasNoParens params) (ht : HasNoParens tail)
    (v : FunctionValue) :
    classify false (declaration keyword n (v.text params tail)) =
      ⟨.function, if v.KeepsName keyword params then some n else nonEmpty? params⟩ := by
  have hexport := exportedName?_eq_none (exportName_occursIn_declaration hk hn hx hp ht v)
  have hname : functionName? false (declaration keyword n (v.text params tail)) =
      nonEmpty? (if v.KeepsName keyword params then n else params) := by
    rw [functionName?, find?_functionName_declaration hp ht hk hn v, hexport]
    rfl
  rw [classify_eq, if_pos (functionPattern_occursIn_declaration hn v), hname]
  split_ifs
  · rw [nonEmpty?_eq, if_neg hn.1]
  · rfl

/-- An arrow marked `async` behind `const`, and an expression with a name of its own. -/
theorem classify_declaration_handlers :
    IsWord "handler".toList ∧ ¬ "exports".toList <:+: "handler".toList ∧
    HasNoParens "event".toList ∧ HasNoParens "\x7b".toList ∧
    classify false "const handler = async (event) => \x7b".toList =
      ⟨.function, some "handler".toList⟩ ∧
    classify false "var handler = function onEvent(event) \x7b".toList =
      ⟨.function, some "event".toList⟩ := by
  have hn : IsWord "handler".toList := by decide
  have hx : ¬ "exports".toList <:+: "handler".toList := by decide
  have hp : HasNoParens "event".toList := by decide
  have ht : HasNoParens "\x7b".toList := by decide
  have hconst : "const".toList ∈ keywords := by decide
  have hvar : "var".toList ∈ keywords := by decide
  have harrow := classify_declaration hconst hn hx hp ht .asyncArrow
  have hnamed := classify_declaration hvar hn hx hp ht
    (.namedExpression "onEvent".toList (by decide))
  rw [if_pos (by decide)] at harrow
  rw [if_neg (by decide)] at hnamed
  refine ⟨hn, hx, hp, ht, (congrArg _ ?_).trans harrow, (congrArg _ ?_).trans hnamed⟩
  · decide +kernel
  · decide +kernel

/-- An arrow marked `async` that `let` declares. -/
def asyncBehindLet : Text :=
  declaration "let".toList "fetchUser".toList
    (FunctionValue.asyncArrow.text "id".toList "\x7b".toList)

/-- Behind `let` the parameters are taken for the name, though the declaration has one. -/
theorem classify_asyncBehindLet : asyncBehindLet = "let fetchUser = async (id) => \x7b".toList ∧
    "let".toList ∈ keywords ∧ IsWord "fetchUser".toList ∧
    ¬ "exports".toList <:+: "fetchUser".toList ∧ HasNoParens "id".toList ∧
    HasNoParens "\x7b".toList ∧ '=' ∉ "\x7b".toList ∧ ¬ "exports".toList <:+: "\x7b".toList ∧
    classify false asyncBehindLet = ⟨.function, some "id".toList⟩ := by
  refine ⟨?_, ?_, ?_, ?_, ?_, ?_, ?_, ?_, ?_⟩ <;> decide +kernel

end Bookbinder
