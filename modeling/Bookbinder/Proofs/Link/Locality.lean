import Bookbinder.Link.Basic
import Bookbinder.Proofs.Text.Cutting

/-!
# Links depend on the window alone

A link is read off the trimmed lines that follow the comment (`Linking.link_of_endsOn`), so two
comments with the same lines behind them document the same construct, wherever they stand. Text above
the end of the comment only shifts lines, and text below the window is never looked at. A larger window
shows the lines of a smaller one and more (`Linking.link_window_only`).
-/

namespace Bookbinder

variable {t : Text} {endLine size : Nat}

/-- The trimmed lines of a source from `endLine + 1` to `endLine + size`, as far as there are any. -/
def linesAfter (t : Text) (endLine size : Nat) : List Text :=
  (((lines t).drop endLine).take size).map trim

theorem length_lines_pos (t : Text) : 0 < (lines t).length :=
  List.length_pos_iff.2 (splitWhen_ne_nil _ t)

/-! ## Windows -/

theorem length_linesAfter (t : Text) (endLine size : Nat) :
    (linesAfter t endLine size).length = min size ((lines t).length - endLine) := by
  simp [linesAfter]

theorem linesAfter_isPrefix {size' : Nat} (h : size ≤ size') (t : Text) (endLine : Nat) :
    linesAfter t endLine size <+: linesAfter t endLine size' := by
  unfold linesAfter
  apply List.IsPrefix.map
  exact List.take_prefix_take_left h

/-- There is a window behind every line but the last, whatever its size. -/
theorem Window.after?_eq_ite (t : Text) (endLine size : Nat) :
    after? t endLine size =
      if endLine ≠ 0 ∧ endLine < (lines t).length then
        some ⟨trim ((lines t).getD (endLine - 1) []), linesAfter t endLine size⟩
      else none := by
  cases endLine with
  | zero => rfl
  | succ last =>
    rw [after?]
    by_cases h : last + 1 < (lines t).length
    · have hlast : last < (lines t).length := by omega
      rw [List.drop_eq_getElem_cons hlast, List.drop_eq_getElem_cons h, if_pos ⟨by omega, h⟩]
      simp [linesAfter, List.getD_eq_getElem?_getD, List.getElem?_eq_getElem hlast]
    · rw [if_neg (by omega)]
      have hshort : ((lines t).drop last).length ≤ 1 := by
        rw [List.length_drop]
        omega
      rcases hdrop : (lines t).drop last with _ | ⟨anchor, _ | ⟨line, rest⟩⟩
      · rfl
      · rfl
      · simp [hdrop] at hshort

/-- A larger window starts with the lines of a smaller one. -/
theorem Window.after?_grows {size' : Nat} (h : size ≤ size') (t : Text) (endLine : Nat) :
    ((after? t endLine size).isSome ↔ (after? t endLine size').isSome) ∧
    ∀ w ∈ after? t endLine size, ∀ w' ∈ after? t endLine size', w.nextLines <+: w'.nextLines ∧
      w.nextLines.length = min size ((lines t).length - endLine) := by
  rw [after?_eq_ite, after?_eq_ite]
  by_cases hline : endLine ≠ 0 ∧ endLine < (lines t).length
  · rw [if_pos hline, if_pos hline]
    refine ⟨by simp, ?_⟩
    rintro w ⟨⟩ w' ⟨⟩
    exact ⟨linesAfter_isPrefix h t endLine, length_linesAfter t endLine size⟩
  · rw [if_neg hline, if_neg hline]
    exact ⟨Iff.rfl, fun w hw => by cases hw⟩

/-! ## Links -/

/-- The comment has a place, and ends on line `endLine`. -/
structure Comment.EndsOn (c : Comment) (endLine : Nat) : Prop where
  start : ∃ p, c.start = some p ∧ 1 ≤ p.line
  stop : ∃ p, c.stop = some p ∧ p.line = endLine
  pos : 1 ≤ endLine

/-- What a comment documents follows from the lines behind it. -/
theorem Linking.link_of_endsOn {c : Comment} (hc : c.EndsOn endLine) (g : Linking) (t : Text) :
    g.link t c =
      if endLine < (lines t).length then
        .classified (classify g.arrowNames (linesAfter t endLine g.windowSize).flatten)
          ⟨trim ((lines t).getD (endLine - 1) []), linesAfter t endLine g.windowSize⟩
      else .endOfFile := by
  obtain ⟨⟨start, hstart, hline⟩, ⟨stop, hstop, rfl⟩, hpos⟩ := hc
  rw [link, hstart, hstop]
  dsimp only
  rw [if_neg (by omega), Window.after?_eq_ite]
  by_cases h : stop.line < (lines t).length
  · rw [if_pos ⟨by omega, h⟩, if_pos h]
    rfl
  · rw [if_neg (by omega), if_neg h]

/-- Both links name the same construct and show the same lines, or no line follows either comment. -/
inductive Link.SameReading : Link → Link → Prop
  | classified (k : Construct) (anchor anchor' : Text) (ls : List Text) :
      SameReading (.classified k ⟨anchor, ls⟩) (.classified k ⟨anchor', ls⟩)
  | endOfFile : SameReading .endOfFile .endOfFile

section TwoSources

variable {g : Linking} {t' : Text} {c c' : Comment} {endLine' : Nat}

theorem Linking.sameReading_of_linesAfter (hc : c.EndsOn endLine) (hc' : c'.EndsOn endLine')
    (hlast : endLine < (lines t).length ↔ endLine' < (lines t').length)
    (hls : linesAfter t endLine g.windowSize = linesAfter t' endLine' g.windowSize) :
    (g.link t c).SameReading (g.link t' c') := by
  rw [link_of_endsOn hc, link_of_endsOn hc', ← hls]
  by_cases h : endLine < (lines t).length
  · rw [if_pos h, if_pos (hlast.1 h)]
    exact .classified ..
  · rw [if_neg h, if_neg (mt hlast.2 h)]
    exact .endOfFile

/-- The text above the line feed that ends the comment's last line is not looked at. -/
theorem Linking.sameReading_of_above {above above' : Text} (hc : c.EndsOn (lines above).length)
    (hc' : c'.EndsOn (lines above').length) (below : Text) :
    (g.link (above ++ '\n' :: below) c).SameReading (g.link (above' ++ '\n' :: below) c') := by
  have hbelow := length_lines_pos below
  apply sameReading_of_linesAfter hc hc'
  · rw [lines_append_cons_newline, lines_append_cons_newline, List.length_append, List.length_append]
    omega
  · unfold linesAfter
    rw [lines_append_cons_newline, lines_append_cons_newline, List.drop_left, List.drop_left]

/-- The lines below the window are not looked at. -/
theorem linesAfter_append {above : Text} (h : endLine + size ≤ (lines above).length) (below : Text) :
    linesAfter (above ++ '\n' :: below) endLine size = linesAfter above endLine size := by
  unfold linesAfter
  rw [lines_append_cons_newline, List.drop_append_of_le_length (by omega),
    List.take_append_of_le_length (by rw [List.length_drop]; omega)]

theorem Linking.link_append (hc : c.EndsOn endLine) {above : Text}
    (h : endLine + g.windowSize ≤ (lines above).length) (below : Text) :
    g.link (above ++ '\n' :: below) c =
      .classified (classify g.arrowNames (linesAfter above endLine g.windowSize).flatten)
        ⟨trim ((lines above).getD (endLine - 1) []), linesAfter above endLine g.windowSize⟩ := by
  have hbelow := length_lines_pos below
  have hpos := hc.pos
  rw [link_of_endsOn hc, linesAfter_append h, lines_append_cons_newline, List.length_append,
    if_pos (by omega), List.getD_eq_getElem?_getD, List.getElem?_append_left (by omega),
    ← List.getD_eq_getElem?_getD]

end TwoSources

/-- A link depends on the window alone. Comments with the same trimmed lines behind them are linked to
the same construct; what stands above the end of a comment only shifts lines; what stands below the
window may be replaced or taken away; and a larger window starts with the lines of a smaller one. -/
theorem Linking.link_window_only (g : Linking) :
    (∀ (t t' : Text) (c c' : Comment) (endLine endLine' : Nat),
      c.EndsOn endLine → c'.EndsOn endLine' →
      endLine < (lines t).length → endLine' < (lines t').length →
      linesAfter t endLine g.windowSize = linesAfter t' endLine' g.windowSize →
      ∃ k anchor anchor' ls, ls = linesAfter t endLine g.windowSize ∧
        g.link t c = .classified k ⟨anchor, ls⟩ ∧ g.link t' c' = .classified k ⟨anchor', ls⟩) ∧
    (∀ (above above' below : Text) (c c' : Comment),
      c.EndsOn (lines above).length → c'.EndsOn (lines above').length →
      (g.link (above ++ '\n' :: below) c).SameReading (g.link (above' ++ '\n' :: below) c') ∧
        (g.link above c).SameReading (g.link above' c')) ∧
    (∀ (above below below' : Text) (c : Comment) (endLine : Nat),
      c.EndsOn endLine → endLine + g.windowSize ≤ (lines above).length →
      g.link (above ++ '\n' :: below) c = g.link (above ++ '\n' :: below') c ∧
        (endLine < (lines above).length →
          g.link (above ++ '\n' :: below) c = g.link above c)) ∧
    ∀ (t : Text) (endLine size size' : Nat), size ≤ size' →
      ((Window.after? t endLine size).isSome ↔ (Window.after? t endLine size').isSome) ∧
      ∀ w ∈ Window.after? t endLine size, ∀ w' ∈ Window.after? t endLine size',
        w.nextLines <+: w'.nextLines ∧
          w.nextLines.length = min size ((lines t).length - endLine) := by
  refine ⟨?_, ?_, ?_, fun t endLine size size' h => Window.after?_grows h t endLine⟩
  · intro t t' c c' endLine endLine' hc hc' h h' hls
    have hlink := link_of_endsOn hc g t
    have hlink' := link_of_endsOn hc' g t'
    rw [if_pos h] at hlink
    rw [if_pos h', ← hls] at hlink'
    exact ⟨_, _, _, _, rfl, hlink, hlink'⟩
  · intro above above' below c c' hc hc'
    refine ⟨sameReading_of_above hc hc' below, sameReading_of_linesAfter hc hc' (by omega) ?_⟩
    simp [linesAfter]
  · intro above below below' c endLine hc h
    refine ⟨by rw [link_append hc h, link_append hc h], fun hlast => ?_⟩
    rw [link_append hc h, link_of_endsOn hc, if_pos hlast]

/-- A comment at the top of a source, and its place. -/
def topBlock : Text := "/** A shape. */".toList

def topComment : Comment := { start := some ⟨1, 0⟩, stop := some ⟨1, 15⟩ }

/-- The same comment further down, broken over two lines. -/
def deepBlock : Text := "'use strict';\n\nvar n; /** A\n shape. */".toList

def deepComment : Comment := { start := some ⟨3, 7⟩, stop := some ⟨4, 10⟩ }

/-- The class under the comment. -/
def shapeLines : Text := "class Shape \x7b\n\x7d".toList

/-- The same class with other margins, and one more line. -/
def raggedShape : Text := "  class Shape \x7b\r\n\x7d\nf();".toList

theorem endsOn_topComment : topComment.EndsOn 1 :=
  ⟨⟨_, rfl, by decide⟩, ⟨_, rfl, rfl⟩, by decide⟩

theorem endsOn_deepComment : deepComment.EndsOn 4 :=
  ⟨⟨_, rfl, by decide⟩, ⟨_, rfl, rfl⟩, by decide⟩

theorem Linking.link_window_only_shape :
    (∃ k anchor anchor' ls, ls = linesAfter (topBlock ++ '\n' :: shapeLines) 1 2 ∧
      ({ windowSize := 2 } : Linking).link (topBlock ++ '\n' :: shapeLines) topComment =
        .classified k ⟨anchor, ls⟩ ∧
      ({ windowSize := 2 } : Linking).link (deepBlock ++ '\n' :: raggedShape) deepComment =
        .classified k ⟨anchor', ls⟩) ∧
    (({} : Linking).link (topBlock ++ '\n' :: raggedShape) topComment).SameReading
      (({} : Linking).link (deepBlock ++ '\n' :: raggedShape) deepComment) ∧
    ({ windowSize := 2 } : Linking).link (topBlock ++ '\n' :: shapeLines ++ '\n' :: shapeLines)
        topComment =
      ({ windowSize := 2 } : Linking).link (topBlock ++ '\n' :: shapeLines) topComment ∧
    ∀ w ∈ Window.after? raggedShape 1 1, ∀ w' ∈ Window.after? raggedShape 1 9,
      w.nextLines <+: w'.nextLines ∧
        w.nextLines.length = min 1 ((lines raggedShape).length - 1) := by
  refine ⟨?_, ?_, ?_, ?_⟩
  · exact (link_window_only { windowSize := 2 }).1 _ _ _ _ 1 4 endsOn_topComment endsOn_deepComment
      (by decide) (by decide) (by decide)
  · exact ((link_window_only {}).2.1 topBlock deepBlock raggedShape _ _ endsOn_topComment
      endsOn_deepComment).1
  · exact ((link_window_only { windowSize := 2 }).2.2.1 (topBlock ++ '\n' :: shapeLines) shapeLines []
      _ 1 endsOn_topComment (by decide)).2 (by decide)
  · exact ((link_window_only {}).2.2.2 raggedShape 1 1 9 (by decide)).2

example : linesAfter (deepBlock ++ '\n' :: raggedShape) 4 2 =
    ["class Shape \x7b".toList, "\x7d".toList] := by
  decide

end Bookbinder
