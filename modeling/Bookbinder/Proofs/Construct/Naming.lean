import Bookbinder.Proofs.Construct.ExportSites
import Bookbinder.Proofs.Pattern.Search

/-!
# The search for the name of a function

The forms that name a function are tried one after the other at each place of a text. In front of a blank
only few of them can match (`matchAt?_functionName_eq`), and at a name with a value behind it the value
decides (`matchAt?_functionName_name`). So the search in a declaration gets to the declared name
(`find?_declaration`), unless the form with `const` matches at its start (`find?_declaration_const`).
-/

namespace Bookbinder

open Pattern

/-- The words that open a declaration. -/
def keywords : List Text := ["const".toList, "let".toList, "var".toList]

/-- A name and its value, declared. -/
def declaration (keyword n value : Text) : Text := keyword ++ ' ' :: (n ++ ' ' :: '=' :: ' ' :: value)

/-! ## Words -/

variable {n v w y r g : Text}

theorem prefix_of_prefix_append_cons {x : Char} (hx : x ∉ w) (h : w <+: y ++ x :: r) : w <+: y := by
  rcases List.prefix_or_prefix_of_prefix h (List.prefix_append y (x :: r)) with h' | h'
  · exact h'
  · obtain ⟨z, rfl⟩ := h'
    cases z with
    | nil => simp
    | cons a z =>
      obtain ⟨rfl, -⟩ := List.cons_prefix_cons.1 ((List.prefix_append_right_inj y).1 h)
      simp at hx

theorem infix_of_infix_append_cons {x : Char} (hx : x ∉ w) (h : w <:+: y ++ x :: r) :
    w <:+: y ∨ w <:+: r := by
  obtain ⟨a, b, h⟩ := h
  rw [List.append_assoc] at h
  rcases List.append_eq_append_iff.1 h with ⟨m, rfl, hm⟩ | ⟨m, rfl, hm⟩
  · left
    obtain ⟨z, rfl⟩ := prefix_of_prefix_append_cons hx ⟨b, hm⟩
    exact ⟨a, z, by simp⟩
  · cases m with
    | nil =>
      left
      have hw : w <+: [] := prefix_of_prefix_append_cons (y := []) hx ⟨b, hm.symm⟩
      rw [List.prefix_nil.1 hw]
      exact List.nil_infix
    | cons z m =>
      obtain ⟨-, rfl⟩ := List.cons.inj hm
      exact .inr ⟨m, b, by simp⟩

theorem isBlank_eq_false_of_isWordChar {x : Char} (h : isWordChar x) : isBlank x = false := by
  by_contra hb
  rw [isWordChar_of_isBlank (eq_true_of_ne_false hb)] at h
  cases h

theorem IsWord.head?_any (hn : IsWord n) : (n ++ r).head?.any isWordChar := by
  obtain ⟨x, n', rfl⟩ := List.exists_cons_of_ne_nil hn.1
  exact hn.2 x (by simp)

theorem IsWord.head?_not_blank (hn : IsWord n) : (n ++ r).head?.any isBlank = false := by
  obtain ⟨x, n', rfl⟩ := List.exists_cons_of_ne_nil hn.1
  exact isBlank_eq_false_of_isWordChar (hn.2 x (by simp))

theorem IsWord.not_mem (hn : IsWord n) {x : Char} (hx : isWordChar x = false) : x ∉ n := by
  intro hmem
  rw [hn.2 x hmem] at hx
  cases hx

theorem isBlankRun_blank : IsBlankRun [' '] := by decide

theorem isSpace_blank : IsSpace [' '] := by decide

/-- A text without blanks that stands at the start ends before the first blank. -/
theorem IsSpace.prefix_of_prefix_append (hg : IsSpace g) (hw : HasNoBlank w)
    (h : w <+: y ++ (g ++ r)) : w <+: y := by
  obtain ⟨x, g, rfl⟩ := List.exists_cons_of_ne_nil hg.1
  refine prefix_of_prefix_append_cons (fun hmem => ?_) h
  exact absurd (hg.2 x (by simp)) (by simp [hw x hmem])

theorem IsSpace.head?_not_word (hg : IsSpace g) : (g ++ r).head?.any isWordChar = false := by
  obtain ⟨x, g', rfl⟩ := List.exists_cons_of_ne_nil hg.1
  exact isWordChar_of_isBlank (hg.2 x (by simp))

namespace Forms

/-! ## Running the parts of a form -/

section Runs

variable {α : Type} {b : Option Char} {cap : Option Text} {f : Continuation α}

theorem run_gap (hf : Refuses .blank f) (hw : IsBlankRun w) (hr : r.head?.any isBlank = false) :
    gap.run ⟨b, w ++ r⟩ cap f = f ⟨charBefore b w, r⟩ cap :=
  runGreedy_of_refuses hf hw hr

/-- An assignment sign with the blanks around it is read whole. -/
theorem run_assign {w₁ w₂ : Text} (hf : Refuses .blank f) (h₁ : IsBlankRun w₁) (h₂ : IsBlankRun w₂)
    (hr : r.head?.any isBlank = false) :
    assign.run ⟨b, w₁ ++ '=' :: (w₂ ++ r)⟩ cap f = f ⟨charBefore (some '=') w₂, r⟩ cap := by
  have hsign : Refuses .blank fun b c => (literal "=".toList).run b c fun b c => gap.run b c f :=
    refuses_literal (by decide)
  calc assign.run ⟨b, w₁ ++ '=' :: (w₂ ++ r)⟩ cap f
      = (literal "=".toList).run ⟨charBefore b w₁, "=".toList ++ (w₂ ++ r)⟩ cap
          fun b c => gap.run b c f :=
        run_gap hsign h₁ (by decide : isBlank '=' = false)
    _ = gap.run ⟨some '=', w₂ ++ r⟩ cap f := run_literal
    _ = f ⟨charBefore (some '=') w₂, r⟩ cap := run_gap hf h₂ hr

/-- Where no assignment sign follows, there is none to read. -/
theorem run_assign_eq_none (hw : IsBlankRun w) (hr : r.head?.any isBlank = false)
    (hne : r.head? ≠ some '=') : assign.run ⟨b, w ++ r⟩ cap f = none := by
  have hsign : Refuses .blank fun b c => (literal "=".toList).run b c fun b c => gap.run b c f :=
    refuses_literal (by decide)
  calc assign.run ⟨b, w ++ r⟩ cap f
      = (literal "=".toList).run ⟨charBefore b w, r⟩ cap fun b c => gap.run b c f :=
        run_gap hsign hw hr
    _ = none := by
        apply run_literal_eq_none
        rintro ⟨z, rfl⟩
        exact hne rfl

theorem refuses_assign : Refuses .word fun b c => assign.run b c f := by
  intro b x xs cap hx
  apply run_assign_eq_none (w := [])
  · simp [IsBlankRun]
  · exact isBlank_eq_false_of_isWordChar hx
  · rintro h
    obtain rfl := Option.some.inj h
    exact absurd hx (by decide)

theorem refuses_captureWord : Refuses .blank fun b c => (capture word).run b c f := by
  intro b x xs cap hx
  exact run_some1_eq_none (isWordChar_of_isBlank hx)

/-- A word and the assignment sign behind it are read whole. -/
theorem run_word_assign (hf : Refuses .blank f) (hn : IsWord n) (hv : v.head?.any isBlank = false) :
    word.run ⟨b, n ++ ' ' :: '=' :: ' ' :: v⟩ cap (fun b c => assign.run b c f) =
      f ⟨some ' ', v⟩ cap := by
  rw [word, run_some1_of_refuses refuses_assign hn.1 hn.2 (by rfl)]
  exact run_assign hf isBlankRun_blank isBlankRun_blank hv

theorem run_captureWord_assign (hf : Refuses .blank f) (hn : IsWord n)
    (hv : v.head?.any isBlank = false) :
    (capture word).run ⟨b, n ++ ' ' :: '=' :: ' ' :: v⟩ cap (fun b c => assign.run b c f) =
      f ⟨some ' ', v⟩ (some n) := by
  rw [word, run_capture_of_refuses refuses_assign hn.1 hn.2 (by rfl)]
  exact run_assign hf isBlankRun_blank isBlankRun_blank hv

theorem run_assign_before_word (hg : IsBlankRun g) (hr : r.head?.any isWordChar) :
    assign.run ⟨b, g ++ r⟩ cap f = none := by
  cases r with
  | nil => cases hr
  | cons x r =>
    refine run_assign_eq_none (r := x :: r) hg ?_ ?_
    · exact isBlank_eq_false_of_isWordChar hr
    · intro h
      obtain rfl : x = '=' := Option.some.inj h
      have hsign : isWordChar '=' = false := by decide
      exact absurd (hsign.symm.trans hr) (by decide)

/-- A word that blanks and another word follow is not assigned to. -/
theorem run_word_assign_eq_none (hy : ∀ x ∈ y, isWordChar x) (hg : IsSpace g)
    (hr : r.head?.any isWordChar) :
    word.run ⟨b, y ++ (g ++ r)⟩ cap (fun b c => assign.run b c f) = none :=
  run_some1_of_refuses_eq_none refuses_assign hy hg.head?_not_word
    fun _ _ => run_assign_before_word hg.2 hr

theorem run_captureWord_assign_eq_none (hy : ∀ x ∈ y, isWordChar x) (hg : IsSpace g)
    (hr : r.head?.any isWordChar) :
    (capture word).run ⟨b, y ++ (g ++ r)⟩ cap (fun b c => assign.run b c f) = none := by
  have hrefuses : Refuses .word fun c (_ : Option Text) =>
      assign.run c (some (Cursor.textTo ⟨b, y ++ (g ++ r)⟩ c)) f :=
    fun c x xs _ hx => refuses_assign c x xs _ hx
  exact run_some1_of_refuses_eq_none hrefuses hy hg.head?_not_word
    fun _ _ => run_assign_before_word hg.2 hr

/-- A keyword and the blanks behind it are read whole. -/
theorem run_keyword (hf : Refuses .blank f) (hg : IsSpace g) (hr : r.head?.any isBlank = false) :
    (literal w).run ⟨b, w ++ (g ++ r)⟩ cap (fun b c => space.run b c f) = f ⟨g.getLast?, r⟩ cap := by
  have hlast : charBefore (charBefore b w) g = g.getLast? := by
    rw [charBefore, List.getLast?_eq_some_getLast hg.1, Option.some_or]
  rw [run_literal, space, run_some1_of_refuses hf hg.1 hg.2 hr, hlast]

/-- A keyword and blanks can only be read where the keyword is the whole word. -/
theorem run_keyword_eq_none (hw : HasNoBlank w) (hy : ∀ x ∈ y, isWordChar x) (hg : IsSpace g)
    (hf : Refuses .blank f) (hr : r.head?.any isBlank = false)
    (hnone : w = y → f ⟨g.getLast?, r⟩ cap = none) :
    (literal w).run ⟨b, y ++ (g ++ r)⟩ cap (fun b c => space.run b c f) = none := by
  by_cases hp : w <+: y
  · obtain ⟨z, rfl⟩ := hp
    cases z with
    | nil =>
      rw [List.append_nil] at hnone ⊢
      rw [run_keyword hf hg hr, hnone rfl]
    | cons x z =>
      rw [List.append_assoc, run_literal]
      exact run_some1_eq_none (isBlank_eq_false_of_isWordChar (hy x (by simp)))
  · exact run_literal_eq_none (mt (hg.prefix_of_prefix_append hw) hp)

end Runs

/-! ## The naming forms at a place -/

variable {b : Option Char}

/-- Where blanks and a word follow, no form that starts with an assignment matches. -/
theorem matchAt?_assigned_eq_none (hy : ∀ x ∈ y, isWordChar x) (hg : IsSpace g)
    (hr : r.head?.any isWordChar) :
    ∀ form ∈ functionNameForms.drop 3, form.matchAt? ⟨b, y ++ (g ++ r)⟩ = none := by
  intro form hform
  simp only [functionNameForms, List.drop_succ_cons, List.drop_zero, List.mem_cons, List.not_mem_nil,
    or_false] at hform
  rcases hform with rfl | rfl | rfl | rfl | rfl
  · simp only [matchAt?, run_append]
    exact run_captureWord_assign_eq_none hy hg hr
  · simp only [matchAt?, run_append]
    exact run_captureWord_assign_eq_none hy hg hr
  · simp only [matchAt?, run_append]
    exact run_word_assign_eq_none hy hg hr
  · simp only [matchAt?, run_append]
    exact run_word_assign_eq_none hy hg hr
  · simp only [matchAt?, run_append]
    exact run_word_assign_eq_none hy hg hr

/-- In front of blanks, the form for declared functions matches only behind its keywords. -/
theorem matchAt?_functionForm_eq_none (hy : ∀ x ∈ y, isWordChar x) (hg : IsSpace g)
    (hr : r.head?.any isBlank = false) (hasync : y = "async".toList → ¬ "function".toList <+: r)
    (hfunction : y = "function".toList → r.head?.any isWordChar = false) :
    (optional ("async" ++ space) ++ "function" ++ space ++ capture word : Pattern).matchAt?
      ⟨b, y ++ (g ++ r)⟩ = none := by
  simp only [matchAt?, run_append, run_optional]
  rw [run_keyword_eq_none (by decide) hy hg (refuses_literal (by decide)) hr
    fun h => run_literal_eq_none (hasync h.symm), Option.none_or]
  exact run_keyword_eq_none (by decide) hy hg refuses_captureWord hr
    fun h => run_some1_eq_none (hfunction h.symm)

/-- The value in the form with `const`. -/
def asyncLine : Pattern := "async" ++ (gap ++ (lineList ++ arrow))

/-- In front of blanks, the first three forms match only behind their keywords. -/
theorem matchAt?_functionName_eq (hy : ∀ x ∈ y, isWordChar x) (hg : IsSpace g)
    (hr : r.head?.any isBlank = false) (hasync : y = "async".toList → ¬ "function".toList <+: r)
    (hfunction : y = "function".toList → r.head?.any isWordChar = false)
    (hconst : y = "const".toList →
      (capture word ++ (assign ++ asyncLine)).matchAt? ⟨g.getLast?, r⟩ = none) :
    functionName.matchAt? ⟨b, y ++ (g ++ r)⟩ =
      (anyOf (functionNameForms.drop 3)).matchAt? ⟨b, y ++ (g ++ r)⟩ := by
  have h₁ : ("const" ++ space ++ capture word ++ assign ++ "async" ++ gap ++ lineList ++ arrow :
      Pattern).matchAt? ⟨b, y ++ (g ++ r)⟩ = none := by
    simp only [matchAt?, run_append]
    exact run_keyword_eq_none (by decide) hy hg refuses_captureWord hr fun h => hconst h.symm
  have h₂ : ("(" ++ capture inside ++ ")" ++ arrow : Pattern).matchAt? ⟨b, y ++ (g ++ r)⟩ = none := by
    apply run_literal_eq_none
    intro h
    have hp : ['('] <+: y := hg.prefix_of_prefix_append (by decide) h
    exact absurd (hy '(' (hp.subset (by simp))) (by decide)
  rw [functionName, functionNameForms, matchAt?_anyOf_cons,
    matchAt?_functionForm_eq_none hy hg hr hasync hfunction, Option.none_or, matchAt?_anyOf_cons, h₁,
    Option.none_or, matchAt?_anyOf_cons, h₂, Option.none_or]
  rfl

variable {q : Pattern}

/-- At a declared name, a form that captures the name goes on with the value. -/
theorem matchAt?_captureWord_assign (hq : q.IsPlain)
    (hblank : Refuses .blank fun b c => q.run b c fun _ c => some (c.getD [])) (hn : IsWord n)
    (hv : v.head?.any isBlank = false) :
    (capture word ++ (assign ++ q)).matchAt? ⟨b, n ++ ' ' :: '=' :: ' ' :: v⟩ =
      (q.matchAt? ⟨some ' ', v⟩).map fun _ => n :=
  (run_captureWord_assign hblank hn hv).trans (hq.run_eq_map _ _)

theorem matchAt?_word_assign
    (hblank : Refuses .blank fun b c => q.run b c fun _ c => some (c.getD [])) (hn : IsWord n)
    (hv : v.head?.any isBlank = false) :
    (word ++ (assign ++ q)).matchAt? ⟨b, n ++ ' ' :: '=' :: ' ' :: v⟩ = q.matchAt? ⟨some ' ', v⟩ :=
  run_word_assign hblank hn hv

/-! The values in four of the forms that start with a name, their parts grouped as a run takes them. -/

def bareValue : Pattern := "function" ++ (gap ++ ("(" ++ (inside ++ ")")))

def arrowValue : Pattern := "(" ++ (inside ++ (")" ++ arrow))

def asyncValue : Pattern := "async" ++ (gap ++ ("(" ++ (capture inside ++ (")" ++ arrow))))

def namedValue : Pattern := "function" ++ (gap ++ (inside ++ ("(" ++ (capture inside ++ ")"))))

/-- At a declared name the value decides, by five forms one after the other. -/
theorem matchAt?_functionName_name (hn : IsWord n) (hv : v.head?.any isBlank = false) :
    functionName.matchAt? ⟨b, n ++ ' ' :: '=' :: ' ' :: v⟩ =
      ((bareValue.matchAt? ⟨some ' ', v⟩).map fun _ => n).or
      (((arrowValue.matchAt? ⟨some ' ', v⟩).map fun _ => n).or
      ((asyncValue.matchAt? ⟨some ' ', v⟩).or
      ((namedValue.matchAt? ⟨some ' ', v⟩).or (arrowParams.matchAt? ⟨some ' ', v⟩)))) := by
  have hsign : isBlank '=' = false := by decide
  have hbare : bareValue.IsPlain :=
    ⟨isPlain_literal _, trivial, isPlain_literal _, trivial, isPlain_literal _⟩
  have harrow : arrowValue.IsPlain := ⟨isPlain_literal _, trivial, isPlain_literal _, isPlain_arrow⟩
  have hforms := matchAt?_functionName_eq (b := b) (r := '=' :: ' ' :: v) hn.2 isSpace_blank hsign
    (by simp) (fun _ => rfl) (fun _ => run_some1_eq_none rfl)
  rw [List.singleton_append] at hforms
  rw [hforms,
    ← matchAt?_captureWord_assign (b := b) hbare (refuses_literal (by decide)) hn hv,
    ← matchAt?_captureWord_assign (b := b) harrow (refuses_literal (by decide)) hn hv,
    ← matchAt?_word_assign (b := b) (q := asyncValue) (refuses_literal (by decide)) hn hv,
    ← matchAt?_word_assign (b := b) (q := namedValue) (refuses_literal (by decide)) hn hv,
    ← matchAt?_word_assign (b := b) (q := arrowParams) (refuses_literal (by decide)) hn hv]
  show (anyOf [_, _, _, _, _]).matchAt? _ = _
  rw [matchAt?_anyOf_cons, matchAt?_anyOf_cons, matchAt?_anyOf_cons, matchAt?_anyOf_cons]
  rfl

/-! ## The search in a declaration -/

theorem forall_keywords : ∀ keyword ∈ keywords, IsWord keyword ∧ ¬ "exports".toList <:+: keyword ∧
    ∀ y ∈ keyword.tails, y ≠ "async".toList ∧ y ≠ "function".toList ∧
      (y = "const".toList → keyword = "const".toList) := by
  decide +kernel

theorem isPlain_asyncLine : asyncLine.IsPlain :=
  ⟨isPlain_literal _, trivial, isPlain_lineList, isPlain_arrow⟩

/-- Where the form with `const` does not match, the search gets to the declared name. -/
theorem find?_declaration {keyword x : Text} (hk : keyword ∈ keywords) (hn : IsWord n)
    (hv : v.head?.any isBlank = false)
    (hconst : keyword = "const".toList → asyncLine.matchAt? ⟨some ' ', v⟩ = none)
    (hx : functionName.matchAt? ⟨some ' ', n ++ ' ' :: '=' :: ' ' :: v⟩ = some x) :
    functionName.find? (declaration keyword n v) = some x := by
  obtain ⟨hword, -, htails⟩ := forall_keywords keyword hk
  refine find?_eq_some_iff.2 ⟨keyword ++ [' '], n ++ ' ' :: '=' :: ' ' :: v, by simp [declaration], ?_, ?_⟩
  · rwa [List.getLast?_concat]
  · -- A place in front of the name has an end `y` of the keyword and a blank behind it.
    intro a c hac hc
    obtain ⟨y, z, rfl⟩ : ∃ y z, c = y ++ [z] := ⟨_, _, (List.dropLast_concat_getLast hc).symm⟩
    rw [← List.append_assoc] at hac
    obtain ⟨rfl, hz⟩ := List.append_inj' hac rfl
    obtain rfl : ' ' = z := List.singleton_inj.1 hz
    obtain ⟨hasync, hfunction, hsame⟩ := htails y ((List.mem_tails _ _).2 ⟨a, rfl⟩)
    have hy : ∀ x ∈ y, isWordChar x := fun x hx => hword.2 x (by simp [hx])
    rw [List.append_assoc, List.singleton_append]
    refine (matchAt?_functionName_eq hy isSpace_blank hn.head?_not_blank (absurd · hasync)
      (absurd · hfunction) fun h => ?_).trans
        (matchAt?_anyOf_eq_none (matchAt?_assigned_eq_none hy isSpace_blank hn.head?_any))
    rw [List.getLast?_singleton, matchAt?_captureWord_assign isPlain_asyncLine (refuses_literal (by decide)) hn hv,
      hconst (hsame h), Option.map_none]

/-- Where the form with `const` matches, it does so at the start, and the declared name is captured. -/
theorem find?_declaration_const (hn : IsWord n) (hv : v.head?.any isBlank = false)
    (h : (asyncLine.matchAt? ⟨some ' ', v⟩).isSome) :
    functionName.find? (declaration "const".toList n v) = some n := by
  have hword : ∀ x ∈ "const".toList, isWordChar x := (forall_keywords _ (by decide)).1.2
  have hform : ("const" ++ space ++ capture word ++ assign ++ "async" ++ gap ++ lineList ++ arrow :
      Pattern).matchAt? ⟨none, declaration "const".toList n v⟩ = some n := by
    obtain ⟨x, hx⟩ := Option.isSome_iff_exists.1 h
    have hname := matchAt?_captureWord_assign (b := some ' ') isPlain_asyncLine
      (refuses_literal (by decide)) hn hv
    rw [hx, Option.map_some] at hname
    simp only [matchAt?, run_append, declaration]
    exact (run_keyword refuses_captureWord isSpace_blank hn.head?_not_blank).trans hname
  refine find?_eq_some_iff.2 ⟨[], declaration "const".toList n v, rfl, ?_, failsWithin_nil⟩
  show functionName.matchAt? ⟨none, _⟩ = some n
  have hfunction := matchAt?_functionForm_eq_none (b := none) hword isSpace_blank
    (hn.head?_not_blank (r := ' ' :: '=' :: ' ' :: v)) (absurd · (by decide)) (absurd · (by decide))
  rw [functionName, functionNameForms, matchAt?_anyOf_cons, matchAt?_anyOf_cons, hform, Option.some_or]
  exact congrArg (Option.or · (some n)) hfunction

theorem hasLanguage_asyncLine : asyncLine.HasLanguage fun s =>
    ∃ w x w', IsBlankRun w ∧ '\n' ∉ x ∧ IsBlankRun w' ∧
      s = "async".toList ++ (w ++ '(' :: (x ++ ')' :: (w' ++ "=>".toList))) := by
  refine ((hasLanguage_literal "async".toList).append (hasLanguage_gap.append
    (hasLanguage_lineList.append (hasLanguage_gap.append (hasLanguage_literal "=>".toList))))).congr
      fun s => ?_
  constructor
  · rintro ⟨_, _, rfl, rfl, w, _, rfl, hw, _, _, rfl, ⟨x, hx, rfl⟩, w', _, rfl, hw', rfl⟩
    exact ⟨w, x, w', hw, hx, hw', by simp⟩
  · rintro ⟨w, x, w', hw, hx, hw', rfl⟩
    exact ⟨_, _, rfl, rfl, w, _, rfl, hw, '(' :: (x ++ [')']), w' ++ "=>".toList, by simp,
      ⟨x, hx, rfl⟩, w', _, rfl, hw', rfl⟩

end Forms

end Bookbinder
