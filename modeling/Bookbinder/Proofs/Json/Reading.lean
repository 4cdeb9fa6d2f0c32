import Bookbinder.Proofs.Json.Spelling
import Mathlib.Data.List.TakeDrop
import Mathlib.Data.Option.Basic
import Mathlib.Tactic.SplitIfs

/-!
# Reading back what is written

The reader inverts every spelling: `parse?_of_spells`. Strings go character by character, since the
escape of a character is read as one piece (`pieces?_escapeChar`). A number ends where the text does not
go on with one (`Stops`), which is the case at every comma, closing bracket and gap.

For values, items and fields the induction is on the fuel. `ReadsValues`, `ReadsItems` and `ReadsFields`
say what a given fuel is enough for; one more unit of it pays for one more bracket or one more item, and
both take characters of their own.
-/

namespace Bookbinder.Json

/-! ## Strings -/

/-- Two hexadecimal digits are enough for a control character. -/
theorem natOfDigits?_control : ∀ n < 0x20, natOfDigits? 16
    ['0', '0', Nat.digitChar (n / 16), Nat.digitChar (n % 16)] = some n := by
  decide

theorem pieces?_escape {s t : Text} {c : Char} (n : Nat) (h : escape? s = some (.char c, t)) :
    pieces? (n + 1) ('\\' :: s) = (pieces? n t).map fun r => (.char c :: r.1, r.2) := by
  simp only [pieces?, h, Option.bind_eq_bind, Option.bind_some]
  cases pieces? n t <;> rfl

theorem pieces?_plain {c : Char} (n : Nat) (t : Text) (hquote : c ≠ '"') (hslash : c ≠ '\\')
    (hc : 0x20 ≤ c.toNat) :
    pieces? (n + 1) (c :: t) = (pieces? n t).map fun r => (.char c :: r.1, r.2) := by
  rw [pieces?]
  · simp only [guard, hc, if_true]
    cases pieces? n t <;> rfl
  · exact hquote
  · exact hslash

/-- What stands for a character in a string is read as that character. -/
theorem pieces?_escapeChar (n : Nat) (c : Char) (t : Text) :
    pieces? (n + 1) (escapeChar c ++ t) = (pieces? n t).map fun r => (.char c :: r.1, r.2) := by
  unfold escapeChar
  split_ifs with hquote hslash hfeed hreturn htab hback hform hcontrol
  · exact pieces?_escape n (by rw [hquote]; rfl)
  · exact pieces?_escape n (by rw [hslash]; rfl)
  · exact pieces?_escape n (by rw [hfeed]; rfl)
  · exact pieces?_escape n (by rw [hreturn]; rfl)
  · exact pieces?_escape n (by rw [htab]; rfl)
  · exact pieces?_escape n (by rw [hback]; rfl)
  · exact pieces?_escape n (by rw [hform]; rfl)
  · refine pieces?_escape n ?_
    show (hex4? ('0' :: '0' :: Nat.digitChar (c.toNat / 16) :: Nat.digitChar (c.toNat % 16) :: t)).map
      (fun r => (Unit16.ofNat r.1, r.2)) = _
    have hread := natOfDigits?_control c.toNat hcontrol
    have hunit : Unit16.ofNat c.toNat = .char c := by
      rw [Unit16.ofNat, if_neg (by omega), if_neg (by omega), Char.ofNat_toNat]
    simp [hex4?, hread, hunit]
  · exact pieces?_plain n t hquote hslash (by omega)

theorem pieces?_quoted (t rest : Text) {n : Nat} (hn : t.length ≤ n) :
    pieces? (n + 1) (t.flatMap escapeChar ++ '"' :: rest) = some (t.map .char, rest) := by
  induction t generalizing n with
  | nil => rfl
  | cons c t ih =>
    obtain ⟨m, rfl⟩ : ∃ m, n = m + 1 := ⟨n - 1, by simp at hn; omega⟩
    rw [List.flatMap_cons, List.append_assoc, pieces?_escapeChar, ih (by simpa using hn)]
    rfl

theorem text?_map_char (t : Text) : text? (t.map .char) = some t := by
  induction t with
  | nil => rfl
  | cons c t ih => simp [text?, ih]

theorem length_le_flatMap_escapeChar (t : Text) : t.length ≤ (t.flatMap escapeChar).length := by
  induction t with
  | nil => simp
  | cons c t ih =>
    have hc : 1 ≤ (escapeChar c).length := by
      unfold escapeChar
      split_ifs <;> simp
    simp only [List.flatMap_cons, List.length_append, List.length_cons]
    omega

/-! ## Numbers -/

/-- The text does not go on with a number. -/
def Stops (rest : Text) : Prop := ∀ x ∈ rest.head?, x.isDigit = false ∧ x ≠ '.' ∧ x ≠ 'e' ∧ x ≠ 'E'

theorem isDigit_of_mem_decimal {n : Nat} {x : Char} (hx : x ∈ decimal n) : x.isDigit :=
  Nat.isDigit_of_mem_toDigits (by decide) (by decide) hx

theorem natOfDigits_decimal (n : Nat) : natOfDigits (decimal n) = n := by
  have h : natOfDigits (decimal n) = Nat.ofDigitChars 10 (decimal n) 0 := by
    simp only [natOfDigits, Nat.ofDigitChars, Nat.mul_comm]
  rw [h]
  exact Nat.ofDigitChars_ten_toDigits

/-- Only zero itself starts with a zero. -/
theorem head?_decimal {n : Nat} (hn : n ≠ 0) : (decimal n).head? ≠ some '0' := by
  induction n using Nat.strongRecOn with
  | ind n ih =>
    by_cases hlt : n < 10
    · have hdigit : ∀ k < 10, k ≠ 0 → [Nat.digitChar k].head? ≠ some '0' := by decide
      rw [decimal, Nat.toDigits_of_lt_base hlt]
      exact hdigit n hlt hn
    · have hhead : (decimal n).head? = (decimal (n / 10)).head? := by
        rw [decimal, Nat.toDigits_of_base_le (by decide) (by omega)]
        rw [List.head?_append, Option.or_of_isSome (by simp)]
        rfl
      rw [hhead]
      exact ih (n / 10) (by omega) (by omega)

theorem digits_append {ds rest : Text} (hds : ∀ x ∈ ds, x.isDigit) (hrest : Stops rest) :
    digits (ds ++ rest) = (ds, rest) := by
  have htake : rest.takeWhile Char.isDigit = [] := by
    cases rest with
    | nil => rfl
    | cons x rest => exact List.takeWhile_cons_of_neg (by simp [hrest x rfl])
  have hdrop : rest.dropWhile Char.isDigit = rest := by
    cases rest with
    | nil => rfl
    | cons x rest => exact List.dropWhile_cons_of_neg (by simp [hrest x rfl])
  rw [digits, List.span_eq_takeWhile_dropWhile, List.takeWhile_append_of_pos hds,
    List.dropWhile_append_of_pos hds, htake, hdrop, List.append_nil]

theorem integer?_decimal (n : Nat) {rest : Text} (hrest : Stops rest) :
    integer? (decimal n ++ rest) = some (decimal n, rest) := by
  rw [integer?, digits_append (fun x => isDigit_of_mem_decimal) hrest]
  split
  next heq => exact absurd (congrArg Prod.fst heq) Nat.toDigits_ne_nil
  next heq =>
    have hdec := congrArg Prod.fst heq
    by_cases hn : n = 0
    · subst hn
      exact absurd hdec (by simp [decimal])
    · exact absurd (congrArg List.head? hdec) (head?_decimal hn)
  next => rfl

theorem fraction?_of_stops {rest : Text} (hrest : Stops rest) : fraction? rest = some ([], rest) := by
  cases rest with
  | nil => rfl
  | cons x rest =>
    rw [fraction?]
    rintro t heq
    exact (hrest x rfl).2.1 (List.cons.inj heq).1

theorem exponent?_of_stops {rest : Text} (hrest : Stops rest) : exponent? rest = some ([], rest) := by
  cases rest with
  | nil => rfl
  | cons x rest =>
    have hx : ¬(x = 'e' ∨ x = 'E') := not_or.2 (hrest x rfl).2.2
    rw [exponent?]
    exact if_neg hx

/-- A number starts with a digit. -/
theorem exists_decimal_eq_cons (n : Nat) : ∃ x ds, decimal n = x :: ds ∧ x.isDigit := by
  obtain ⟨x, ds, hdec⟩ := List.exists_cons_of_ne_nil (Nat.toDigits_ne_nil (b := 10) (n := n))
  refine ⟨x, ds, hdec, isDigit_of_mem_decimal (n := n) ?_⟩
  rw [decimal, hdec]
  exact List.mem_cons_self

theorem number?_decimal (n : Nat) {rest : Text} (hrest : Stops rest) :
    number? (decimal n ++ rest) = some (nat n, rest) := by
  obtain ⟨x, ds, hdec, hx⟩ := exists_decimal_eq_cons n
  unfold number?
  split
  next minus t heq =>
    split at heq
    next heq' =>
      obtain ⟨rfl, -⟩ := List.cons.inj ((congrArg (· ++ rest) hdec).symm.trans heq')
      exact absurd hx (by decide)
    next =>
      obtain ⟨rfl, rfl⟩ := Prod.mk.inj heq
      simp [integer?_decimal n hrest, fraction?_of_stops hrest, exponent?_of_stops hrest,
        natOfDigits_decimal]

theorem value?_decimal (m n : Nat) {rest : Text} (hrest : Stops rest) :
    value? (m + 1) (decimal n ++ rest) = some (nat n, rest) := by
  obtain ⟨x, ds, hdec, hx⟩ := exists_decimal_eq_cons n
  rw [← number?_decimal n hrest, hdec, List.cons_append, value?]
  -- No other kind of value starts with a digit.
  all_goals
    intro t heq
    obtain ⟨rfl, -⟩ := List.cons.inj heq
    exact absurd hx (by decide)

/-! ## Gaps -/

theorem skipSpace_append {g t : Text} {x : Char} (hg : IsGap g) (hx : isSpace x = false) :
    skipSpace (g ++ x :: t) = x :: t := by
  rw [skipSpace, List.dropWhile_append_of_pos hg, List.dropWhile_cons_of_neg (by simp [hx])]

theorem stops_of_isSpace {x : Char} (t : Text) (hx : isSpace x) : Stops (x :: t) := by
  intro y hy
  obtain rfl : x = y := Option.some.inj hy
  simp only [isSpace, Bool.or_eq_true, beq_iff_eq] at hx
  rcases hx with ((rfl | rfl) | rfl) | rfl <;> decide

theorem stops_append {g t : Text} (hg : IsGap g) (ht : Stops t) : Stops (g ++ t) := by
  cases g with
  | nil => exact ht
  | cons x g => exact stops_of_isSpace (g ++ t) (hg x List.mem_cons_self)

theorem stops_cons {x : Char} (t : Text) (hx : x ∈ [',', ']', '}']) : Stops (x :: t) := by
  intro y hy
  obtain rfl : x = y := Option.some.inj hy
  simp only [List.mem_cons, List.not_mem_nil, or_false] at hx
  rcases hx with rfl | rfl | rfl <;> decide

/-! ## Values -/

/-- A value starts with a character that is neither white space nor the end of a list. -/
theorem Spells.exists_eq_cons {j : Json} {s : Text} (h : Spells j s) :
    ∃ x t, s = x :: t ∧ isSpace x = false ∧ x ≠ ']' := by
  cases h with
  | nat n =>
    obtain ⟨x, ds, hdec, hx⟩ := exists_decimal_eq_cons n
    refine ⟨x, ds, hdec, ?_, ?_⟩
    · refine Bool.eq_false_iff.2 fun hs => ?_
      exact absurd hx (by simp [stops_of_isSpace [] hs x rfl])
    · rintro rfl
      exact absurd hx (by decide)
  | _ => exact ⟨_, _, rfl, by decide, by decide⟩

theorem SpellsItems.exists_eq_cons {js : List Json} {s : Text} (h : SpellsItems js s) :
    ∃ x t, s = x :: t ∧ isSpace x = false ∧ x ≠ ']' := by
  cases h with
  | last hs => exact hs.exists_eq_cons
  | cons hs _ _ _ =>
    obtain ⟨x, t, rfl, hx⟩ := hs.exists_eq_cons
    exact ⟨x, _, rfl, hx⟩

theorem SpellsFields.exists_eq_cons {fs : List (Text × Json)} {s : Text} (h : SpellsFields fs s) :
    ∃ t, s = '"' :: t := by
  rcases h with ⟨⟨⟩⟩ | ⟨⟨⟩, _⟩
  · exact ⟨_, rfl⟩
  · exact ⟨_, rfl⟩

theorem pieces?_quote (t rest : Text) :
    pieces? ((t.flatMap escapeChar ++ '"' :: rest).length + 1) (t.flatMap escapeChar ++ '"' :: rest) =
      some (t.map .char, rest) := by
  refine pieces?_quoted t rest ?_
  have := length_le_flatMap_escapeChar t
  simp only [List.length_append]
  omega

theorem quote_append (t rest : Text) :
    quote t ++ rest = '"' :: (t.flatMap escapeChar ++ '"' :: rest) := by
  simp [quote]

theorem value?_quote (n : Nat) (t rest : Text) :
    value? (n + 1) (quote t ++ rest) = some (str t, rest) := by
  simp only [quote_append, value?, pieces?_quote, text?_map_char, Option.map_some, Option.getD_some]

/-- With that fuel, every value is read that is written in at most half as many characters. -/
def ReadsValues (n : Nat) : Prop :=
  ∀ {j : Json} {s rest : Text}, Spells j s → 2 * s.length ≤ n → Stops rest →
    value? n (s ++ rest) = some (j, rest)

/-- With that fuel, so are the items of every list. -/
def ReadsItems (n : Nat) : Prop :=
  ∀ {js : List Json} {s g : Text} (rest : Text), SpellsItems js s → 2 * s.length < n → IsGap g →
    items? n (s ++ (g ++ ']' :: rest)) = some (js, rest)

/-- With that fuel, so are the fields of every object. -/
def ReadsFields (n : Nat) : Prop :=
  ∀ {fs : List (Text × Json)} {s g : Text} (rest : Text), SpellsFields fs s → 2 * s.length < n →
    IsGap g → fields? n (s ++ (g ++ '}' :: rest)) = some (fs, rest)

theorem value?_bracket {n : Nat} {t t' : Text} {x : Char} (h : skipSpace t = x :: t')
    (hx : x ≠ ']') : value? (n + 1) ('[' :: t) = (items? n (x :: t')).map fun r => (arr r.1, r.2) := by
  simp only [value?, h]
  split
  next heq => exact absurd (List.cons.inj heq).1 hx
  next => rfl

theorem value?_brace {n : Nat} {t t' : Text} {x : Char} (h : skipSpace t = x :: t')
    (hx : x ≠ '}') : value? (n + 1) ('{' :: t) = (fields? n (x :: t')).map fun r => (obj r.1, r.2) := by
  simp only [value?, h]
  split
  next heq => exact absurd (List.cons.inj heq).1 hx
  next => rfl

theorem readsValues_succ {n : Nat} (hitems : ReadsItems n) (hfields : ReadsFields n) :
    ReadsValues (n + 1) := by
  intro j s rest hs hn hrest
  cases hs with
  | null | boolTrue | boolFalse => rfl
  | nat k => exact value?_decimal n k hrest
  | str t => exact value?_quote n t rest
  | emptyArr hg =>
    simp only [List.cons_append, List.append_assoc, List.nil_append, value?]
    rw [skipSpace_append hg (by decide)]
    rfl
  | @arr items g s g' hg hs hg' =>
    have hread := hitems rest hs (by simp at hn; omega) hg'
    obtain ⟨x, t, rfl, hspace, hx⟩ := hs.exists_eq_cons
    simp only [List.cons_append, List.append_assoc, List.nil_append] at hread ⊢
    rw [value?_bracket (skipSpace_append hg hspace) hx, hread]
    rfl
  | emptyObj hg =>
    simp only [List.cons_append, List.append_assoc, List.nil_append, value?]
    rw [skipSpace_append hg (by decide)]
    rfl
  | @obj fields g s g' hg hs hg' =>
    have hread := hfields rest hs (by simp at hn; omega) hg'
    obtain ⟨t, rfl⟩ := hs.exists_eq_cons
    simp only [List.cons_append, List.append_assoc, List.nil_append] at hread ⊢
    rw [value?_brace (skipSpace_append hg (by decide)) (by decide), hread]
    rfl

theorem readsItems_succ {n : Nat} (hvalues : ReadsValues n) (hitems : ReadsItems n) :
    ReadsItems (n + 1) := by
  intro js s g rest hs hn hg
  cases hs with
  | last hs =>
    rw [items?, hvalues hs (by omega) (stops_append hg (stops_cons rest (by simp)))]
    simp only [Option.bind_eq_bind, Option.bind_some]
    rw [skipSpace_append hg (by decide)]
    rfl
  | @cons j js s g₁ g₂ s' hs hg₁ hg₂ hs' =>
    simp only [List.length_append, List.length_cons] at hn
    have hread := hitems rest hs' (by omega) hg
    obtain ⟨x, t, rfl, hspace, -⟩ := hs'.exists_eq_cons
    simp only [List.cons_append, List.append_assoc] at hread ⊢
    rw [items?, hvalues hs (by omega) (stops_append hg₁ (stops_cons _ (by simp)))]
    simp only [Option.bind_eq_bind, Option.bind_some]
    rw [skipSpace_append hg₁ (by decide)]
    simp only
    rw [skipSpace_append hg₂ hspace, hread]
    rfl

theorem fields?_field {n : Nat} {f : Text × Json} {s t : Text} (hvalues : ReadsValues n)
    (hs : SpellsField f s) (hn : 2 * s.length ≤ n) (ht : Stops t) :
    fields? (n + 1) (s ++ t) =
      match skipSpace t with
      | '}' :: rest => some ([f], rest)
      | ',' :: rest => (fields? n (skipSpace rest)).bind fun r => some (f :: r.1, r.2)
      | _ => none := by
  obtain @⟨name, j, g, g', s, hg, hg', hs⟩ := hs
  simp only [List.length_append, List.length_cons] at hn
  have hread := hvalues hs (by omega) ht
  obtain ⟨x, u, rfl, hspace, -⟩ := hs.exists_eq_cons
  simp only [List.cons_append, List.append_assoc] at hread ⊢
  rw [quote_append, fields?]
  simp only [pieces?_quote, text?_map_char, Option.bind_eq_bind, Option.bind_some]
  rw [skipSpace_append hg (by decide)]
  simp only
  rw [skipSpace_append hg' hspace, hread]
  rfl

theorem readsFields_succ {n : Nat} (hvalues : ReadsValues n) (hfields : ReadsFields n) :
    ReadsFields (n + 1) := by
  intro fs s g rest hs hn hg
  cases hs with
  | last hs =>
    rw [fields?_field hvalues hs (by omega) (stops_append hg (stops_cons _ (by simp))),
      skipSpace_append hg (by decide)]
    rfl
  | @cons f fs s g₁ g₂ s' hs hg₁ hg₂ hs' =>
    simp only [List.length_append, List.length_cons] at hn
    have hread := hfields rest hs' (by omega) hg
    obtain ⟨t, rfl⟩ := hs'.exists_eq_cons
    simp only [List.cons_append, List.append_assoc] at hread ⊢
    rw [fields?_field hvalues hs (by omega) (stops_append hg₁ (stops_cons _ (by simp))),
      skipSpace_append hg₁ (by decide)]
    simp only
    rw [skipSpace_append hg₂ (by decide), hread]
    rfl

-- A list of `k` characters needs fuel `2 * k + 1`: one unit for the item in front, and the item itself
-- is read with what is left, which is twice its length.
theorem reads_all (n : Nat) : ReadsValues n ∧ ReadsItems n ∧ ReadsFields n := by
  induction n with
  | zero =>
    refine ⟨fun hs hn _ => ?_, fun _ _ hn _ => absurd hn (Nat.not_lt_zero _),
      fun _ _ hn _ => absurd hn (Nat.not_lt_zero _)⟩
    obtain ⟨x, t, rfl, -⟩ := hs.exists_eq_cons
    exact absurd hn (by simp)
  | succ n ih =>
    obtain ⟨hvalues, hitems, hfields⟩ := ih
    exact ⟨readsValues_succ hitems hfields, readsItems_succ hvalues hitems,
      readsFields_succ hvalues hfields⟩

/-- Every spelling of a value is read as that value. -/
theorem parse?_of_spells {j : Json} {s : Text} (h : Spells j s) : parse? s = some j := by
  have hread := (reads_all (2 * s.length + 2)).1 h (by omega) (show Stops [] from nofun)
  obtain ⟨x, t, rfl, hspace, -⟩ := h.exists_eq_cons
  have hskip : skipSpace (x :: t) = x :: t := skipSpace_append isGap_nil hspace
  rw [List.append_nil] at hread
  rw [parse?, hskip, hread]
  rfl

end Bookbinder.Json
