import Bookbinder.Proofs.Text.Trimming
import Mathlib.Data.List.Forall2

/-!
# Margins of lines

The margins of a line are the blanks at its two ends. Two texts have the same lines up to margins
(`SameLines`) if their trimmed lines are equal. Trimming a whole text and stripping a fixed head or
tail off a trimmed text respect this, though they work on the text and not on its lines: only empty
lines are lost at the ends (`map_trim_lines_trimStart`), and only the first line is touched by
stripping a head (`map_trim_lines_stripHead`). What holds at the start of a text carries over to its
end by reversing the text (`SameLines.reverse`).
-/

namespace Bookbinder

variable {s t : Text}

/-- The texts have the same lines, blanks at the ends of lines aside. -/
def SameLines (s t : Text) : Prop := (lines s).map trim = (lines t).map trim

/-! ## Margins -/

theorem trim_blank_append {a : Text} (ha : IsBlankRun a) (t : Text) : trim (a ++ t) = trim t := by
  induction a with
  | nil => rfl
  | cons x a ih =>
    rw [List.cons_append, trim_cons_of_blank (ha x (by simp)), ih fun y hy => ha y (by simp [hy])]

theorem trim_append_blank {b : Text} (hb : IsBlankRun b) (t : Text) : trim (t ++ b) = trim t := by
  induction b generalizing t with
  | nil => rw [List.append_nil]
  | cons x b ih =>
    rw [← List.singleton_append, ← List.append_assoc, ih fun y hy => hb y (by simp [hy]),
      trim_concat_of_blank (hb x (by simp))]

/-- What is trimmed off the end are blanks. -/
theorem exists_trimEnd_append (t : Text) : ∃ b, IsBlankRun b ∧ t = trimEnd t ++ b := by
  refine ⟨(t.reverse.takeWhile isBlank).reverse, ?_, ?_⟩
  · intro x hx
    exact List.all_eq_true.1 List.all_takeWhile x (List.mem_reverse.1 hx)
  · rw [trimEnd, dropEndWhile, ← List.reverse_append, List.takeWhile_append_dropWhile,
      List.reverse_reverse]

/-- What is trimmed off the start are blanks. -/
theorem exists_append_trimStart (t : Text) : ∃ a, IsBlankRun a ∧ t = a ++ trimStart t :=
  ⟨t.takeWhile isBlank, List.all_eq_true.1 List.all_takeWhile, List.takeWhile_append_dropWhile.symm⟩

/-- A text is its trimmed part between its margins. -/
theorem exists_margins (t : Text) : ∃ a b, IsBlankRun a ∧ IsBlankRun b ∧ t = a ++ (trim t ++ b) := by
  obtain ⟨a, ha, hstart⟩ := exists_append_trimStart t
  obtain ⟨b, hb, hend⟩ := exists_trimEnd_append (trimStart t)
  refine ⟨a, b, ha, hb, ?_⟩
  rw [trim, ← hend, ← hstart]

theorem isInfix_trim (t : Text) : trim t <:+: t := by
  obtain ⟨a, b, -, -, ht⟩ := exists_margins t
  exact ⟨a, b, by rw [List.append_assoc, ← ht]⟩

theorem trim_eq_nil_iff : trim t = [] ↔ IsBlankRun t := by
  constructor
  · intro h
    obtain ⟨a, b, ha, hb, ht⟩ := exists_margins t
    rw [ht, h]
    exact List.forall_mem_append.2 ⟨ha, hb⟩
  · intro h
    rw [trim, trimStart_eq_nil_iff.2 h]
    rfl

theorem IsBlankRun.count_eq_zero {x : Char} (h : IsBlankRun t) (hx : isBlank x = false) :
    t.count x = 0 := by
  rw [List.count_eq_zero]
  intro hmem
  simp [h x hmem] at hx

/-- Trimming keeps the characters that are no blanks. -/
theorem count_trim {x : Char} (hx : isBlank x = false) (t : Text) : (trim t).count x = t.count x := by
  obtain ⟨a, b, ha, hb, ht⟩ := exists_margins t
  conv_rhs => rw [ht]
  rw [List.count_append, List.count_append, ha.count_eq_zero hx, hb.count_eq_zero hx, Nat.zero_add,
    Nat.add_zero]

/-! ## Reversing a text -/

theorem reverse_joinWith (sep : Text) (ts : List Text) :
    (joinWith sep ts).reverse = joinWith sep.reverse (ts.map List.reverse).reverse := by
  induction ts with
  | nil => rfl
  | cons t ts ih =>
    cases ts with
    | nil => rfl
    | cons u ts =>
      have hne : ((u :: ts).map List.reverse).reverse ≠ [] := by simp
      rw [joinWith_cons_cons, List.reverse_append, List.reverse_append, ih, List.map_cons (a := t),
        List.reverse_cons, joinWith_append _ hne (by simp), List.append_assoc]
      rfl

theorem lines_reverse (t : Text) : lines t.reverse = ((lines t).map List.reverse).reverse := by
  have hne : ((lines t).map List.reverse).reverse ≠ [] := by
    obtain ⟨l, ls, hl⟩ := exists_lines_eq_cons t
    simp [hl]
  obtain ⟨l, ls, hl⟩ := List.exists_cons_of_ne_nil hne
  have htext : t.reverse = joinWith ['\n'] (l :: ls) := by
    rw [← hl, ← List.reverse_singleton (a := '\n'), ← reverse_joinWith, joinWith_lines]
  rw [hl, htext]
  refine lines_joinWith fun u hu hn => ?_
  rw [← hl, List.mem_reverse, List.mem_map] at hu
  obtain ⟨v, hv, rfl⟩ := hu
  exact newline_not_mem_of_mem_lines hv (List.mem_reverse.1 hn)

theorem trim_reverse (t : Text) : trim t.reverse = (trim t).reverse := by
  rw [← trimStart_trimEnd t, trim]
  show (trimStart (trimStart t.reverse).reverse).reverse = _
  rfl

theorem SameLines.reverse (h : SameLines s t) : SameLines s.reverse t.reverse := by
  have hrev (u : Text) : (lines u.reverse).map trim = (((lines u).map trim).map List.reverse).reverse := by
    rw [lines_reverse, List.map_reverse, List.map_map, List.map_map]
    congr 1
    exact List.map_congr_left fun l _ => trim_reverse l
  rw [SameLines, hrev, hrev, h]

/-! ## Trimming a text -/

/-- Drops the empty lines in front, but keeps the last line. -/
def dropEmptyLines : List Text → List Text
  | [] :: l :: ls => dropEmptyLines (l :: ls)
  | ls => ls

theorem map_trim_lines_trimStart (t : Text) :
    (lines (trimStart t)).map trim = dropEmptyLines ((lines t).map trim) := by
  induction t with
  | nil => rfl
  | cons x t ih =>
    obtain ⟨l, ls, hl⟩ := exists_lines_eq_cons t
    rw [hl] at ih
    by_cases hn : x = '\n'
    · rw [hn, trimStart_cons_of_blank (by decide), ih, lines_cons_newline, hl]
      rfl
    · rw [lines_cons_of_ne hn hl, List.map_cons]
      cases hb : isBlank x with
      | true => rw [trimStart_cons_of_blank hb, ih, trim_cons_of_blank hb, List.map_cons]
      | false =>
        rw [trimStart_cons_of_not_blank hb, lines_cons_of_ne hn hl, List.map_cons,
          trim_cons_of_not_blank hb]
        rfl

theorem SameLines.trimStart (h : SameLines s t) : SameLines (trimStart s) (trimStart t) := by
  rw [SameLines, map_trim_lines_trimStart, map_trim_lines_trimStart, h]

theorem SameLines.trimEnd (h : SameLines s t) : SameLines (trimEnd s) (trimEnd t) :=
  h.reverse.trimStart.reverse

theorem SameLines.trim (h : SameLines s t) : SameLines (trim s) (trim t) := h.trimStart.trimEnd

/-! ## Stripping the ends of a text -/

theorem stripHead?_append_cons {head : Text} {x : Char} (hx : x ∉ head) (s t : Text) :
    stripHead? head (s ++ x :: t) = (stripHead? head s).map (· ++ x :: t) := by
  induction head generalizing s with
  | nil => rfl
  | cons h head ih =>
    obtain ⟨hne, hx⟩ := List.ne_and_not_mem_of_not_mem_cons hx
    cases s with
    | nil => exact if_neg (Ne.symm hne)
    | cons y s =>
      rw [List.cons_append, stripHead?, stripHead?]
      split
      · exact ih hx s
      · rfl

/-- A head ends before a character that it does not have. -/
theorem stripHead_append_cons {head : Text} {x : Char} (hx : x ∉ head) (s t : Text) :
    stripHead head (s ++ x :: t) = stripHead head s ++ x :: t := by
  rw [stripHead, stripHead, stripHead?_append_cons hx]
  cases stripHead? head s <;> rfl

theorem stripHead_append_blank {head : Text} (hh : HasNoBlank head) {b : Text} (hb : IsBlankRun b)
    (s : Text) : stripHead head (s ++ b) = stripHead head s ++ b := by
  cases b with
  | nil => rw [List.append_nil, List.append_nil]
  | cons x b =>
    refine stripHead_append_cons (fun hx => ?_) s b
    have := hh x hx
    rw [hb x (by simp)] at this
    cases this

theorem stripHead_isSuffix (head t : Text) : stripHead head t <:+ t := by
  rw [stripHead]
  cases h : stripHead? head t with
  | none => exact List.suffix_refl t
  | some r => exact ⟨head, (stripHead?_eq_some h).symm⟩

/-- A text is its first line and, if there are more, what comes behind the first line feed. -/
theorem eq_of_lines_eq_cons {l : Text} {ls : List Text} (h : lines t = l :: ls) :
    t = l ∧ ls = [] ∨ ∃ rest, t = l ++ '\n' :: rest ∧ ls = lines rest := by
  have ht := joinWith_lines t
  rw [h] at ht
  cases ls with
  | nil => exact .inl ⟨ht.symm, rfl⟩
  | cons k ls =>
    refine .inr ⟨joinWith ['\n'] (k :: ls), ?_, ?_⟩
    · rw [← ht, joinWith_cons_cons, List.append_assoc, List.singleton_append]
    · exact (lines_joinWith fun u hu =>
        newline_not_mem_of_mem_lines (h ▸ List.mem_cons_of_mem l hu)).symm

/-- Stripping a head works on the first line. -/
theorem lines_stripHead {head : Text} (hh : '\n' ∉ head) (t : Text) :
    lines (stripHead head t) = (lines t).modifyHead (stripHead head) := by
  obtain ⟨l, ls, hl⟩ := exists_lines_eq_cons t
  have hline : '\n' ∉ stripHead head l := fun hn =>
    newline_not_mem_of_mem_lines (hl ▸ List.mem_cons_self) ((stripHead_isSuffix head l).mem hn)
  rw [hl, List.modifyHead_cons]
  rcases eq_of_lines_eq_cons hl with ⟨rfl, rfl⟩ | ⟨rest, rfl, rfl⟩
  · exact lines_of_not_mem hline
  · rw [stripHead_append_cons hh, lines_append_newline hline]

theorem trim_stripHead {head : Text} (hh : HasNoBlank head) (ht : t.head?.any isBlank = false) :
    trim (stripHead head t) = trim (stripHead head (trim t)) := by
  have hstart : trimStart t = t := by
    apply trimStart_eq_self
    intro x hx
    rwa [hx] at ht
  obtain ⟨b, hb, he⟩ := exists_trimEnd_append t
  calc trim (stripHead head t) = trim (stripHead head (trimEnd t) ++ b) := by
        rw [← stripHead_append_blank hh hb, ← he]
    _ = trim (stripHead head (trimEnd t)) := trim_append_blank hb _
    _ = trim (stripHead head (trim t)) := by rw [trim.eq_1 t, hstart]

theorem map_trim_lines_stripHead {head : Text} (hh : HasNoBlank head)
    (ht : t.head?.any isBlank = false) :
    (lines (stripHead head t)).map trim =
      ((lines t).map trim).modifyHead fun l => trim (stripHead head l) := by
  have hn : '\n' ∉ head := fun hn => absurd (hh _ hn) (by decide)
  obtain ⟨l, ls, hl⟩ := exists_lines_eq_cons t
  have hline : l.head?.any isBlank = false := by
    cases l with
    | nil => rfl
    | cons x l =>
      rcases eq_of_lines_eq_cons hl with ⟨rfl, -⟩ | ⟨rest, rfl, -⟩
      · exact ht
      · exact ht
  rw [lines_stripHead hn, hl, List.modifyHead_cons, List.map_cons, List.map_cons,
    List.modifyHead_cons, trim_stripHead hh hline]

theorem SameLines.stripHead (h : SameLines s t) {head : Text} (hh : HasNoBlank head)
    (hs : s.head?.any isBlank = false) (ht : t.head?.any isBlank = false) :
    SameLines (stripHead head s) (stripHead head t) := by
  rw [SameLines, map_trim_lines_stripHead hh hs, map_trim_lines_stripHead hh ht, h]

theorem stripTail_eq (tail t : Text) :
    stripTail tail t = (stripHead tail.reverse t.reverse).reverse := by
  rw [stripTail, Bookbinder.stripHead]
  cases stripHead? tail.reverse t.reverse with
  | none => exact (List.reverse_reverse t).symm
  | some r => rfl

theorem SameLines.stripTail (h : SameLines s t) {tail : Text} (hh : HasNoBlank tail)
    (hs : s.getLast?.any isBlank = false) (ht : t.getLast?.any isBlank = false) :
    SameLines (stripTail tail s) (stripTail tail t) := by
  rw [stripTail_eq, stripTail_eq]
  rw [← List.head?_reverse] at hs ht
  exact (h.reverse.stripHead (fun x hx => hh x (List.mem_reverse.1 hx)) hs ht).reverse

/-! ## Margins that are added -/

/-- The lines of `t'` are those of `t` with blanks added at either end. -/
def AddsMargins (t t' : Text) : Prop :=
  List.Forall₂ (fun line line' => ∃ a b, IsBlankRun a ∧ IsBlankRun b ∧ line' = a ++ line ++ b)
    (lines t) (lines t')

theorem AddsMargins.sameLines (h : AddsMargins s t) : SameLines t s := by
  have hmap {ls ls' : List Text} (hls : List.Forall₂ (fun line line' => ∃ a b, IsBlankRun a ∧
      IsBlankRun b ∧ line' = a ++ line ++ b) ls ls') : ls'.map trim = ls.map trim := by
    induction hls with
    | nil => rfl
    | cons hline _ ih =>
      obtain ⟨a, b, ha, hb, rfl⟩ := hline
      rw [List.map_cons, List.map_cons, ih, trim_append_blank hb, trim_blank_append ha]
  exact hmap h

/-- The text with a carriage return before every line feed. -/
def withReturns (t : Text) : Text := t.flatMap fun x => if x = '\n' then ['\r', '\n'] else [x]

theorem withReturns_cons (x : Char) (t : Text) :
    withReturns (x :: t) = (if x = '\n' then ['\r', '\n'] else [x]) ++ withReturns t :=
  List.flatMap_cons

theorem addsMargins_withReturns (t : Text) : AddsMargins t (withReturns t) := by
  -- Nothing is added at the start of a line, so that a character may be put in front of it.
  have hends : List.Forall₂ (fun line line' => ∃ b, IsBlankRun b ∧ line' = line ++ b)
      (lines t) (lines (withReturns t)) := by
    induction t with
    | nil => exact .cons ⟨[], by decide, rfl⟩ .nil
    | cons x t ih =>
      rw [withReturns_cons]
      by_cases hx : x = '\n'
      · have hreturns : lines (['\r', '\n'] ++ withReturns t) = ['\r'] :: lines (withReturns t) :=
          lines_append_newline (s := ['\r']) (by decide) (withReturns t)
        rw [if_pos hx, hx, lines_cons_newline, hreturns]
        exact .cons ⟨['\r'], by decide, rfl⟩ ih
      · obtain ⟨l, ls, hl⟩ := exists_lines_eq_cons t
        obtain ⟨k, ks, hk⟩ := exists_lines_eq_cons (withReturns t)
        rw [hl, hk, List.forall₂_cons] at ih
        obtain ⟨⟨b, hb, rfl⟩, hrest⟩ := ih
        rw [if_neg hx, List.singleton_append, lines_cons_of_ne hx hl, lines_cons_of_ne hx hk]
        exact .cons ⟨b, hb, rfl⟩ hrest
  refine hends.imp fun line line' hline => ?_
  obtain ⟨b, hb, rfl⟩ := hline
  exact ⟨[], b, by decide, hb, rfl⟩

end Bookbinder
