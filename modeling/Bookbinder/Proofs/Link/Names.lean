import Bookbinder.Link.Basic
import Bookbinder.Proofs.Pattern.Occurrence
import Bookbinder.Proofs.Text.Cutting

/-!
# Names of linked classes and variables

The lines of a window are trimmed and run together before a construct is looked for, so a name may
start on one line and go on through the next ones: `class Foo` above `extends Bar` names `Fooextends`.
What always holds (`link_name_starts_in_line`) is that the name starts with a whole word of one line,
behind a blank, and is that word unless the word ends its line; then the word characters that the later
lines start with belong to the name too.
-/

namespace Bookbinder

open Pattern

/-- `line` is `a`, the word `m` and `b`, and no word character touches the word. -/
structure WholeWord (line a m b : Text) : Prop where
  eq : line = a ++ m ++ b
  ne : m ≠ []
  word : ∀ x ∈ m, isWordChar x
  before : a.getLast?.any isWordChar = false
  after : b.head?.any isWordChar = false

/-- A line that ends with a word ends in a word character. -/
theorem WholeWord.getLast? {line a m : Text} (h : WholeWord line a m []) :
    line.getLast?.any isWordChar := by
  rw [h.eq, List.append_nil, List.getLast?_append, List.getLast?_eq_some_getLast h.ne]
  exact h.word _ (List.getLast_mem h.ne)

/-- The text stands in the line as a whole word. -/
def StandsIn (n line : Text) : Prop := ∃ a b, WholeWord line a n b

theorem StandsIn.infix {n line : Text} (h : StandsIn n line) : n <:+: line := by
  obtain ⟨a, b, hw⟩ := h
  exact ⟨a, b, hw.eq.symm⟩

/-- The word at the start of a text. -/
theorem wholeWord_takeWhile {a v : Text} (ha : a.getLast?.any isWordChar = false)
    (hv : v.takeWhile isWordChar ≠ []) :
    WholeWord (a ++ v) a (v.takeWhile isWordChar) (v.dropWhile isWordChar) where
  eq := by rw [List.append_assoc, List.takeWhile_append_dropWhile]
  ne := hv
  word := fun x hx => List.all_eq_true.1 List.all_takeWhile x hx
  before := ha
  after := head?_dropWhile isWordChar v

/-! ## Declarations -/

/-- A declared name is the run of word characters behind a blank. -/
theorem exists_blank_of_find? {q : Pattern} {t n : Text}
    (h : (q ++ Forms.space ++ capture Forms.word).find? t = some n) :
    ∃ u x v, t = u ++ x :: v ∧ isBlank x ∧ n = v.takeWhile isWordChar ∧ n ≠ [] := by
  obtain ⟨pre, s, v, c, rfl, ⟨s₁, s₂, c₁, c₂, rfl, -, hspace, -⟩, hn, hne⟩ :=
    exists_longest_of_find? h
  obtain ⟨hs, hblank, -⟩ := matches_some1.1 hspace
  obtain ⟨s₃, x, rfl⟩ : ∃ s₃ x, s₂ = s₃ ++ [x] := ⟨_, _, (List.dropLast_concat_getLast hs).symm⟩
  exact ⟨pre ++ s₁ ++ s₃, x, v, by simp, hblank x (by simp), hn, hne⟩

theorem exists_blank_of_classify {arrowNames : Bool} {t n : Text}
    (hk : (classify arrowNames t).kind = .classDecl ∨ (classify arrowNames t).kind = .variableDecl)
    (hn : (classify arrowNames t).name? = some n) :
    ∃ u x v, t = u ++ x :: v ∧ isBlank x ∧ n = v.takeWhile isWordChar ∧ n ≠ [] := by
  rcases hk with hk | hk
  · rw [classify_name?, hk] at hn
    exact exists_blank_of_find? hn
  · rw [classify_name?, hk] at hn
    exact exists_blank_of_find? hn

/-! ## Lines -/

/-- A character of the joined lines stands in one of them. -/
theorem exists_line_of_flatten {ls : List Text} {u v : Text} {x : Char} (h : ls.flatten = u ++ x :: v) :
    ∃ above line below a b, ls = above ++ line :: below ∧ line = a ++ x :: b ∧
      v = b ++ below.flatten := by
  induction ls generalizing u with
  | nil => simp at h
  | cons l ls ih =>
    rw [List.flatten_cons, List.append_eq_append_iff] at h
    rcases h with ⟨w, rfl, hw⟩ | ⟨w, rfl, hw⟩
    · -- The character comes after the first line.
      obtain ⟨above, line, below, a, b, rfl, hl, hv⟩ := ih hw
      exact ⟨l :: above, line, below, a, b, rfl, hl, hv⟩
    · cases w with
      | nil =>
        obtain ⟨above, line, below, a, b, rfl, hl, hv⟩ := ih (u := []) hw.symm
        exact ⟨(u ++ []) :: above, line, below, a, b, rfl, hl, hv⟩
      | cons y w =>
        obtain ⟨rfl, rfl⟩ := List.cons.inj hw
        exact ⟨[], _, ls, u, w, rfl, rfl, rfl⟩

theorem Window.trimmed_of_after? {content : Text} {endLine size : Nat} {w : Window}
    (h : after? content endLine size = some w) : ∀ line ∈ w.nextLines, ∃ raw, line = trim raw := by
  intro line hline
  unfold after? at h
  split at h
  · cases h
  · split at h
    · obtain rfl := Option.some.inj h
      obtain ⟨raw, -, rfl⟩ := List.mem_map.1 hline
      exact ⟨raw, rfl⟩
    · cases h

/-- A classified link has a window, and its construct is what the joined window declares. -/
theorem Linking.link_eq_classified {g : Linking} {content : Text} {c : Comment} {k : Construct}
    {w : Window} (h : g.link content c = .classified k w) :
    ∃ stop, c.stop = some stop ∧ Window.after? content stop.line g.windowSize = some w ∧
      k = classify g.arrowNames w.joined := by
  rw [link] at h
  split at h
  · rename_i start stop hstart hstop
    split at h
    · cases h
    · split at h
      · rename_i w' hw
        obtain ⟨rfl, rfl⟩ := Link.classified.inj h
        exact ⟨stop, hstop, hw, rfl⟩
      · cases h
  · cases h

/-! ## The name of a link -/

/-- Behind a blank of trimmed lines that run together, a name starts with a whole word of the blank's
line and goes on only past the end of that line. -/
theorem exists_wholeWord_of_flatten {ls : List Text} {u v n : Text} {x : Char}
    (htrim : ∀ line ∈ ls, line.getLast?.any isBlank = false) (h : ls.flatten = u ++ x :: v)
    (hx : isBlank x) (hn : n = v.takeWhile isWordChar) (hne : n ≠ []) :
    ∃ above line below a m b, ls = above ++ line :: below ∧ WholeWord line a m b ∧
      n = m ++ if b = [] then below.flatten.takeWhile isWordChar else [] := by
  obtain ⟨above, line, below, a, b, rfl, hline, rfl⟩ := exists_line_of_flatten h
  have hb : b ≠ [] := by
    rintro rfl
    have hlast := htrim line (by simp)
    rw [hline] at hlast
    simp [hx] at hlast
  have ha : (a ++ [x]).getLast?.any isWordChar = false := by simp [isWordChar_of_isBlank hx]
  have hword : b.takeWhile isWordChar ≠ [] := by
    obtain ⟨y, b, rfl⟩ := List.exists_cons_of_ne_nil hb
    by_cases hy : isWordChar y
    · simp [hy]
    · rw [List.cons_append, List.takeWhile_cons_of_neg hy] at hn
      exact absurd hn hne
  refine ⟨above, line, below, a ++ [x], b.takeWhile isWordChar, b.dropWhile isWordChar, rfl, ?_, ?_⟩
  · rw [hline, ← List.singleton_append, ← List.append_assoc]
    exact wholeWord_takeWhile ha hword
  · rw [hn, List.takeWhile_append]
    have hlen := congrArg List.length (List.takeWhile_append_dropWhile (p := isWordChar) (l := b))
    rw [List.length_append] at hlen
    by_cases hd : b.dropWhile isWordChar = []
    · have hall := List.takeWhile_append_dropWhile (p := isWordChar) (l := b)
      rw [hd, List.append_nil] at hall
      rw [if_pos (by rw [hall]), if_pos hd, hall]
    · have hpos := List.length_pos_iff.2 hd
      rw [if_neg (by omega), if_neg hd, List.append_nil]

/-- The name of a class or variable starts with a whole word `m` of one line of the window. It is `m`
itself when the line goes on behind `m`; when `m` ends its line, the word characters at the start of
the later lines follow. So the name stands in a line as a whole word in every window in which no line
that ends in a word character is followed by one. -/
theorem link_name_starts_in_line (g : Linking) (content : Text) (c : Comment) {k : Construct}
    {w : Window} {n : Text} (h : g.link content c = .classified k w)
    (hk : k.kind = .classDecl ∨ k.kind = .variableDecl) (hn : k.name? = some n) :
    (∃ above line below a m b, w.nextLines = above ++ line :: below ∧ WholeWord line a m b ∧
      n = m ++ if b = [] then below.flatten.takeWhile isWordChar else []) ∧
    ((∀ above line below, w.nextLines = above ++ line :: below → line.getLast?.any isWordChar →
        below.flatten.head?.any isWordChar = false) →
      ∃ line ∈ w.nextLines, StandsIn n line) := by
  obtain ⟨stop, -, hw, rfl⟩ := Linking.link_eq_classified h
  have htrim : ∀ line ∈ w.nextLines, line.getLast?.any isBlank = false := by
    intro line hline
    obtain ⟨raw, rfl⟩ := Window.trimmed_of_after? hw line hline
    exact getLast?_trim raw
  obtain ⟨u, x, v, hjoin, hx, hv, hne⟩ := exists_blank_of_classify hk hn
  obtain ⟨above, line, below, a, m, b, hls, hword, hm⟩ :=
    exists_wholeWord_of_flatten htrim hjoin hx hv hne
  refine ⟨⟨above, line, below, a, m, b, hls, hword, hm⟩, fun hends => ?_⟩
  refine ⟨line, by rw [hls]; simp, a, b, ?_⟩
  have hrest : (if b = [] then below.flatten.takeWhile isWordChar else []) = [] := by
    split
    · rename_i hb
      rw [hb] at hword
      have hhead := hends above line below hls hword.getLast?
      cases hb : below.flatten with
      | nil => rfl
      | cons y ys =>
        rw [hb] at hhead
        simp only [List.head?_cons, Option.any_some] at hhead
        rw [List.takeWhile_cons_of_neg (by simp [hhead])]
    · rfl
  rw [hrest, List.append_nil] at hm
  rw [hm]
  exact hword

/-! ## A name that stands in no line -/

/-- A class whose heading is broken behind its name. -/
def brokenHeading : Text := "/** A shape. */\nclass Circle\nextends Base".toList

/-- The comment above the class. -/
def brokenHeadingComment : Comment := { start := some ⟨1, 0⟩, stop := some ⟨1, 15⟩ }

theorem link_brokenHeading :
    ({} : Linking).link brokenHeading brokenHeadingComment =
      .classified ⟨.classDecl, some "Circleextends".toList⟩
        ⟨"/** A shape. */".toList, ["class Circle".toList, "extends Base".toList]⟩ := by
  decide +kernel

/-- The name of a class need not stand in any line of its window. -/
theorem link_name_not_in_line : ∃ k w n, ({} : Linking).link brokenHeading brokenHeadingComment =
    .classified k w ∧ k.kind = .classDecl ∧ k.name? = some n ∧
      ¬ ∃ line ∈ w.nextLines, StandsIn n line := by
  refine ⟨_, _, _, link_brokenHeading, rfl, rfl, ?_⟩
  rintro ⟨line, hline, hn⟩
  have hlen : 13 ≤ line.length := hn.infix.length_le
  have hshort : ∀ l ∈ ["class Circle".toList, "extends Base".toList], l.length ≤ 12 := by
    decide +kernel
  have := hshort line hline
  omega

/-- A class whose heading is one line. -/
def plainHeading : Text := "/** A shape. */\nclass Circle".toList

theorem link_plainHeading :
    ({} : Linking).link plainHeading brokenHeadingComment =
      .classified ⟨.classDecl, some "Circle".toList⟩
        ⟨"/** A shape. */".toList, ["class Circle".toList]⟩ := by
  decide +kernel

theorem link_name_brokenHeading :
    (({} : Linking).link brokenHeading brokenHeadingComment =
        .classified ⟨.classDecl, some "Circleextends".toList⟩
          ⟨"/** A shape. */".toList, ["class Circle".toList, "extends Base".toList]⟩ ∧
      ∃ above line below a m b,
        ["class Circle".toList, "extends Base".toList] = above ++ line :: below ∧
          WholeWord line a m b ∧
          "Circleextends".toList = m ++ if b = [] then below.flatten.takeWhile isWordChar else []) ∧
    (({} : Linking).link plainHeading brokenHeadingComment =
        .classified ⟨.classDecl, some "Circle".toList⟩
          ⟨"/** A shape. */".toList, ["class Circle".toList]⟩ ∧
      ∃ line ∈ ["class Circle".toList], StandsIn "Circle".toList line) := by
  refine ⟨⟨link_brokenHeading, ?_⟩, ⟨link_plainHeading, ?_⟩⟩
  · exact (link_name_starts_in_line {} brokenHeading brokenHeadingComment link_brokenHeading
      (Or.inl rfl) rfl).1
  · refine (link_name_starts_in_line {} plainHeading brokenHeadingComment link_plainHeading
      (Or.inl rfl) rfl).2 fun above line below h _ => ?_
    -- There is no line below the only one.
    have hlen := congrArg List.length h
    simp only [List.length_cons, List.length_nil, List.length_append] at hlen
    have hbelow : below = [] := List.length_eq_zero_iff.1 (by omega)
    rw [hbelow]
    rfl

end Bookbinder
