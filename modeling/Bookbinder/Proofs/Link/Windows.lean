import Bookbinder.Link.Basic
import Bookbinder.Proofs.Script.Extraction

/-!
# The link of an extracted comment

The points of a tree count rows along a script, and a window cuts the script into lines anew. Both
agree: the window behind the end of a text starts with the line after the one that the text ends on
(`Window.after?_behind`). So a comment that was extracted from a script always gets a link, and the
link is read off the text behind the comment (`Linking.linkAll_comments`).
-/

namespace Bookbinder

/-! ## Lines around a place -/

/-- What stands behind the last line feed. -/
def lastLine (t : Text) : Text := (lines t).getLastD []

/-- The window behind the end of `s`, where `s` goes on with `t`: its anchor is the line that `s` ends
on, and its lines are those that start in `t`. -/
theorem Window.after?_behind (s t : Text) (size : Nat) :
    Window.after? (s ++ t) (Point.behind s).position.line size =
      match lines t with
      | piece :: line :: rest =>
        some ⟨trim (lastLine s ++ piece), ((line :: rest).take size).map trim⟩
      | _ => none := by
  obtain ⟨above, row, hp, hrows⟩ := exists_rows s
  obtain ⟨piece, pieces, ht⟩ := List.exists_cons_of_ne_nil (splitWhen_ne_nil (· == '\n') t)
  have ht : lines t = piece :: pieces := ht
  have hs : lines s = above ++ [row] := by simpa using hrows [] [] [] rfl
  have hlast : lastLine s = row := by simp [lastLine, hs]
  rw [hp, Point.position, Window.after?, hrows t piece pieces ht, List.drop_left, hlast, ht]
  cases pieces <;> rfl

/-! ## Links -/

/-- `l` is a definite link for a comment that ends between the texts `before` and `after` of a source:
there is none only if no line follows, and otherwise it shows the lines behind the first line feed and
names the construct in them. -/
structure Linking.IsLinkBetween (g : Linking) (before after : Text) (l : Link) : Prop where
  located : l ≠ .unlocated
  endOfFile_iff : l = .endOfFile ↔ '\n' ∉ after
  classified : '\n' ∈ after → ∃ rest below w,
    after = rest ++ '\n' :: below ∧ '\n' ∉ rest ∧
      w.anchor = trim (lastLine before ++ rest) ∧
      w.nextLines = ((lines below).take g.windowSize).map trim ∧
      w.nextLines.length = min g.windowSize (lines below).length ∧ w.nextLines ≠ [] ∧
      l = .classified (classify g.arrowNames w.nextLines.flatten) w

section Links

variable {g : Linking} {before after : Text}

theorem Point.line_position_ne_zero (p : Point) : p.position.line ≠ 0 := Nat.succ_ne_zero p.row

/-- A located comment is looked up by the line it ends on. -/
theorem Linking.link_locate (g : Linking) (content : Text) (c : Comment) {start stop : Position}
    (hstart : start.line ≠ 0) (hstop : stop.line ≠ 0) :
    g.link content (c.locate start stop) =
      match Window.after? content stop.line g.windowSize with
      | some w => .classified (classify g.arrowNames w.joined) w
      | none => .endOfFile :=
  if_neg (not_or.2 ⟨hstart, hstop⟩)

/-- Nothing follows the line that a comment ends on. -/
theorem Linking.isLinkBetween_of_not_mem (h : '\n' ∉ after) :
    g.IsLinkBetween before after .endOfFile where
  located := by simp
  endOfFile_iff := by simp [h]
  classified hmem := absurd hmem h

/-- Some line follows the one that a comment ends on. -/
theorem Linking.isLinkBetween_of_newline (hs : 1 ≤ g.windowSize) {rest below : Text}
    (hrest : '\n' ∉ rest) {w : Window} (hanchor : w.anchor = trim (lastLine before ++ rest))
    (hlines : w.nextLines = ((lines below).take g.windowSize).map trim) :
    g.IsLinkBetween before (rest ++ '\n' :: below)
      (.classified (classify g.arrowNames w.joined) w) where
  located := by simp
  endOfFile_iff := by simp
  classified _ := by
    have hpos : 0 < (lines below).length := List.length_pos_iff.2 (splitWhen_ne_nil _ _)
    have hlen : w.nextLines.length = min g.windowSize (lines below).length := by simp [hlines]
    have hne : w.nextLines ≠ [] := by
      intro hnil
      rw [hnil, List.length_nil] at hlen
      omega
    exact ⟨rest, below, w, rfl, hrest, hanchor, hlines, hlen, hne, rfl⟩

theorem Linking.isLinkBetween_link (hs : 1 ≤ g.windowSize) (before after : Text) (c : Comment)
    {start : Position} (hstart : start.line ≠ 0) :
    g.IsLinkBetween before after
      (g.link (before ++ after) (c.locate start (Point.behind before).position)) := by
  rw [Linking.link_locate g _ c hstart (Point.line_position_ne_zero _),
    Window.after?_behind]
  by_cases h : '\n' ∈ after
  · obtain ⟨rest, below, rfl, hrest⟩ := List.eq_append_cons_of_mem h
    obtain ⟨line, ls, hbelow⟩ := List.exists_cons_of_ne_nil (splitWhen_ne_nil (· == '\n') below)
    have hbelow : lines below = line :: ls := hbelow
    rw [lines_append_newline hrest, hbelow]
    refine Linking.isLinkBetween_of_newline hs hrest rfl ?_
    rw [hbelow]
  · rw [lines_of_not_mem h]
    exact Linking.isLinkBetween_of_not_mem h

end Links

/-! ## Extracted comments -/

/-- Every comment that is extracted from a script gets a link, in order, and the link tells exactly
what stands in the lines behind the comment. The place where a comment ends is read off its position:
`before` is the script up to there and `after` the rest. -/
theorem Linking.linkAll_comments (g : Linking) (hs : 1 ≤ g.windowSize) (d : Dialect) (t : Text) :
    (g.linkAll t (Script.comments d t)).map (·.comment) = Script.comments d t ∧
    ∀ e ∈ g.linkAll t (Script.comments d t), ∃ stop before after,
      e.comment.stop = some stop ∧ textBefore? t stop = some before ∧ t = before ++ after ∧
        g.IsLinkBetween before after e.link := by
  constructor
  · simp [Linking.linkAll, Function.comp_def]
  · intro e he
    obtain ⟨c, hc, rfl⟩ := List.mem_map.1 he
    obtain ⟨before, block, after, rfl, -, -, rfl⟩ := Script.exists_block_of_mem_comments hc
    refine ⟨_, before ++ block, after, rfl, textBefore?_behind _ _, rfl, ?_⟩
    exact Linking.isLinkBetween_link hs (before ++ block) after (Comment.parse block)
      (Point.line_position_ne_zero (.behind before))

/-- Two comments on one line, and one on the last line. -/
def sharedLine : Text := "/** a */ /** b */ let x;\r\n\n  f();\n/** c */ // end".toList

theorem Linking.linkAll_comments_sharedLine :
    1 ≤ ({ windowSize := 2 } : Linking).windowSize ∧
    (({ windowSize := 2 } : Linking).linkAll sharedLine (Script.comments .jsx sharedLine)).map
        (·.comment) = Script.comments .jsx sharedLine ∧
    ∀ e ∈ ({ windowSize := 2 } : Linking).linkAll sharedLine (Script.comments .jsx sharedLine),
      ∃ stop before after, e.comment.stop = some stop ∧
        textBefore? sharedLine stop = some before ∧ sharedLine = before ++ after ∧
        ({ windowSize := 2 } : Linking).IsLinkBetween before after e.link :=
  ⟨by decide, Linking.linkAll_comments { windowSize := 2 } (by decide) .jsx sharedLine⟩

example : (({ windowSize := 2 } : Linking).linkAll sharedLine
    (Script.comments .jsx sharedLine)).map (·.link) =
      [.classified .other ⟨"/** a */ /** b */ let x;".toList, [[], "f();".toList]⟩,
       .classified .other ⟨"/** a */ /** b */ let x;".toList, [[], "f();".toList]⟩,
       .endOfFile] := by
  decide +kernel

end Bookbinder
