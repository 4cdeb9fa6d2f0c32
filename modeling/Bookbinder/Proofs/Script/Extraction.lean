import Bookbinder.Proofs.Script.Walk

/-!
# The tree that the scanner makes

The scanner cuts a script into lexemes that put together give the script back (`sourceOf_scanFrom`), and
those that it takes for comments are whole ones (`isHonest_step`, case by case over what the scanner may
be inside of). So the tree of a script, with a leaf for each lexeme, fits it (`fits_parse`), and the
comments of a script are readings of finished blocks in it (`exists_block_of_mem_comments`).
-/

namespace Bookbinder.Script

/-! ## Steps -/

/-- The step takes a whole comment if it takes a comment at all. -/
def Step.IsHonest (t : Text) (r : Step) : Prop := r.kind = .comment → isClosed (t.take r.length)

section Steps

variable {t : Text} {s : ScanState}

theorem isHonest_mk {kind : LexemeKind} (h : kind ≠ .comment) (length : Nat) (state : ScanState) :
    (Step.mk kind length state).IsHonest t := fun hk => absurd hk h

theorem isHonest_significant {kind : LexemeKind} (h : kind ≠ .comment) (length : Nat)
    (stack : List Frame) (last : Last) : (Step.significant kind length stack last).IsHonest t :=
  isHonest_mk h _ _

theorem isHonest_trivia {kind : LexemeKind} (h : kind ≠ .comment) (length : Nat) :
    (Step.trivia kind length s t).IsHonest t := isHonest_mk h _ _

theorem isHonest_commentStep (length : Nat) : (commentStep s t length).IsHonest t := by
  intro h
  simp only [commentStep, Step.trivia] at h ⊢
  split at h
  · rename_i hb
    exact (Bool.and_eq_true _ _ ▸ hb).1
  · cases h

theorem isHonest_wordStep (g : Grammar) : (wordStep g s t).IsHonest t := by
  simp only [wordStep]
  split
  · exact isHonest_significant (by decide) _ _ _
  · split
    · exact isHonest_significant (by decide) _ _ _
    · split <;> exact isHonest_significant (by decide) _ _ _

theorem isHonest_punctuationStep : (punctuationStep s t).IsHonest t := by
  simp only [punctuationStep]
  generalize (if s.last = .operand then Last.operand else Last.operator) = suffixed
  split <;> exact isHonest_significant (by decide) _ _ _

theorem isHonest_codeStep (g : Grammar) : (codeStep g s t).IsHonest t := by
  unfold codeStep
  split
  · exact isHonest_commentStep _
  · split
    · exact isHonest_trivia (by decide) _
    · split
      · exact isHonest_significant (by decide) _ _ _
      · split
        · exact isHonest_trivia (by decide) _
        · split
          · exact isHonest_significant (by decide) _ _ _
          · split
            · exact isHonest_significant (by decide) _ _ _
            · split
              · exact isHonest_wordStep g
              · split
                · split <;> exact isHonest_significant (by decide) _ _ _
                · split
                  · exact isHonest_significant (by decide) _ _ _
                  · exact isHonest_punctuationStep

theorem isHonest_templateStep (outer : List Frame) : (templateStep s outer t).IsHonest t := by
  unfold templateStep
  split <;> exact isHonest_significant (by decide) _ _ _

theorem isHonest_childrenStep (outer : List Frame) : (childrenStep s outer t).IsHonest t := by
  unfold childrenStep
  split
  case h_3 => exact isHonest_trivia (by decide) _
  all_goals exact isHonest_significant (by decide) _ _ _

theorem isHonest_closingTagStep (outer : List Frame) : (closingTagStep s outer t).IsHonest t := by
  unfold closingTagStep
  split
  · exact isHonest_commentStep _
  · split
    · exact isHonest_mk (by decide) _ _
    · exact isHonest_significant (by decide) _ _ _

theorem isHonest_tagStep (angles : Nat) (outer : List Frame) :
    (tagStep s angles outer t).IsHonest t := by
  unfold tagStep
  split
  · exact isHonest_commentStep _
  · split
    case h_1 => exact isHonest_mk (by decide) _ _
    case h_5 => split <;> exact isHonest_significant (by decide) _ _ _
    case h_6 => split <;> exact isHonest_significant (by decide) _ _ _
    case h_7 =>
      split
      · exact isHonest_significant (by decide) _ _ _
      · split
        · exact isHonest_trivia (by decide) _
        · exact isHonest_significant (by decide) _ _ _
    all_goals exact isHonest_significant (by decide) _ _ _

/-- Whatever the scanner is inside of, a comment it takes is a whole one. -/
theorem isHonest_step (g : Grammar) : (step g s t).IsHonest t := by
  unfold step
  split
  · exact isHonest_templateStep _
  · exact isHonest_childrenStep _
  · exact isHonest_tagStep _ _
  · exact isHonest_closingTagStep _
  · exact isHonest_codeStep g

end Steps

/-! ## Lexemes -/

/-- The text that lexemes were cut from. -/
def sourceOf (ls : List Lexeme) : Text := ls.flatMap (·.text)

theorem sourceOf_cons (l : Lexeme) (ls : List Lexeme) : sourceOf (l :: ls) = l.text ++ sourceOf ls :=
  List.flatMap_cons

theorem sourceOf_append (ls ms : List Lexeme) : sourceOf (ls ++ ms) = sourceOf ls ++ sourceOf ms :=
  List.flatMap_append

theorem sourceOf_scanFrom (g : Grammar) (s : ScanState) (t : Text) : sourceOf (scanFrom g s t) = t := by
  fun_induction scanFrom g s t with
  | case1 => rfl
  | case2 s c cs r ih => rw [sourceOf_cons, ih, List.cons_append, List.take_append_drop]

/-- The comments among the lexemes are whole. -/
theorem isClosed_of_mem_scanFrom {g : Grammar} {s : ScanState} {t : Text} {l : Lexeme}
    (hl : l ∈ scanFrom g s t) (hk : l.kind = .comment) : isClosed l.text := by
  fun_induction scanFrom g s t with
  | case1 => cases hl
  | case2 s c cs r ih =>
    rcases List.mem_cons.1 hl with rfl | hl
    · have hb : isClosed ((c :: cs).take r.length) := isHonest_step g hk
      cases hr : r.length with
      | zero => simp [isClosed]
      | succ n =>
        rw [hr] at hb
        exact hb
    · exact ih hl

/-! ## Leaves -/

section Leaves

variable {startByte : Nat} {start : Point} {ls : List Lexeme} {n : Tree}

/-- Every leaf comes from a lexeme, and lies where that lexeme does. -/
theorem exists_lexeme_of_mem_leavesFrom (h : n ∈ leavesFrom startByte start ls) :
    ∃ before l after, ls = before ++ l :: after ∧
      n = ⟨l.kind.nodeKind, startByte + byteLength (sourceOf before),
        startByte + byteLength (sourceOf before ++ l.text), start.advance (sourceOf before),
        start.advance (sourceOf before ++ l.text), []⟩ := by
  induction ls generalizing startByte start with
  | nil => cases h
  | cons l ls ih =>
    rw [leavesFrom] at h
    rcases List.mem_cons.1 h with rfl | h
    · exact ⟨[], l, ls, rfl, rfl⟩
    · obtain ⟨before, m, after, rfl, rfl⟩ := ih h
      refine ⟨l :: before, m, after, rfl, ?_⟩
      rw [sourceOf_cons, List.append_assoc, byteLength_append l.text, byteLength_append l.text,
        Point.advance_append start l.text, Point.advance_append start l.text, Nat.add_assoc,
        Nat.add_assoc]

theorem pairwise_leavesFrom (startByte : Nat) (start : Point) (ls : List Lexeme) :
    (leavesFrom startByte start ls).Pairwise fun a b => a.stopByte ≤ b.startByte := by
  induction ls generalizing startByte start with
  | nil => exact List.Pairwise.nil
  | cons l ls ih =>
    refine List.pairwise_cons.2 ⟨fun n hn => ?_, ih _ _⟩
    obtain ⟨before, m, after, rfl, rfl⟩ := exists_lexeme_of_mem_leavesFrom hn
    exact Nat.le_add_right _ _

theorem nodes_of_mem_leavesFrom (h : n ∈ leavesFrom startByte start ls) : n.nodes = [n] := by
  obtain ⟨before, l, after, rfl, rfl⟩ := exists_lexeme_of_mem_leavesFrom h
  rfl

end Leaves

theorem nodeKind_eq_comment {k : LexemeKind} : k.nodeKind = "comment" ↔ k = .comment := by
  cases k <;> decide

/-! ## The tree of a script -/

theorem fits_root (g : Grammar) (t : Text) : (parse g t).Fits t where
  start before hb := by
    obtain ⟨-, hlen⟩ := takeBytes?_eq_some hb
    obtain rfl : before = [] := byteLength_eq_zero.1 hlen
    rfl
  stop before hb := by
    have ht : takeBytes? t (byteLength t) = some t := by simpa using takeBytes?_append t []
    obtain rfl : t = before := Option.some.inj (ht.symm.trans hb)
    rfl
  whole hk := absurd (show "program" = "comment" from hk) (by decide)
  ordered := by
    refine (pairwise_leavesFrom 0 ⟨0, 0⟩ (scan g t)).imp_of_mem fun {a b} ha hb hab x hx y hy => ?_
    rw [nodes_of_mem_leavesFrom ha, List.mem_singleton] at hx
    rw [nodes_of_mem_leavesFrom hb, List.mem_singleton] at hy
    rw [hx, hy]
    exact hab

theorem fits_leaf {g : Grammar} {t : Text} {n : Tree} (h : n ∈ leavesFrom 0 ⟨0, 0⟩ (scan g t)) :
    n.Fits t := by
  obtain ⟨before, l, after, hls, rfl⟩ := exists_lexeme_of_mem_leavesFrom h
  have ht : t = sourceOf before ++ l.text ++ sourceOf after := by
    rw [← sourceOf_scanFrom g {} t, List.append_assoc, ← sourceOf_cons, ← sourceOf_append]
    exact congrArg sourceOf hls
  have hstart : takeBytes? t (byteLength (sourceOf before)) = some (sourceOf before) := by
    rw [ht, List.append_assoc, takeBytes?_append]
  have hstop : takeBytes? t (byteLength (sourceOf before ++ l.text)) =
      some (sourceOf before ++ l.text) := by
    rw [ht, takeBytes?_append]
  rw [Nat.zero_add, Nat.zero_add]
  refine ⟨fun s hs => ?_, fun s hs => ?_, fun hk => ?_, List.Pairwise.nil⟩
  · obtain rfl := Option.some.inj (hstart.symm.trans hs)
    rfl
  · obtain rfl := Option.some.inj (hstop.symm.trans hs)
    rfl
  · have htext : byteSlice? t (byteLength (sourceOf before))
        (byteLength (sourceOf before ++ l.text)) = some l.text := by
      rw [byteSlice?, hstart, hstop]
      exact stripHead?_append _ _
    rw [Tree.text, htext]
    refine isClosed_of_mem_scanFrom (g := g) (s := {}) (t := t) ?_ (nodeKind_eq_comment.1 hk)
    change l ∈ scan g t
    rw [hls]
    simp

/-- The tree that is made of a script fits it. -/
theorem fits_parse (g : Grammar) (t : Text) : ∀ n ∈ (parse g t).nodes, n.Fits t := by
  intro n hn
  rw [Tree.nodes_eq] at hn
  rcases List.mem_cons.1 hn with rfl | hn
  · exact fits_root g t
  · obtain ⟨leaf, hleaf, hn⟩ := List.mem_flatMap.1 hn
    rw [nodes_of_mem_leavesFrom hleaf, List.mem_singleton] at hn
    rw [hn]
    exact fits_leaf hleaf

/-- The comments of a script are those that are extracted with this parser. -/
theorem extract_parse (d : Dialect) (t : Text) :
    extract (fun g s => some (parse g s)) d t = .ok (comments d t) := rfl

/-- Every comment of a script is the reading of a finished block in it, with the positions where that
block starts and ends. -/
theorem exists_block_of_mem_comments {d : Dialect} {t : Text} {c : Comment} (h : c ∈ comments d t) :
    ∃ before block after, t = before ++ block ++ after ∧ IsFinishedBlock block ∧
      block ≠ "/**/".toList ∧
      c = (Comment.parse block).locate (Point.behind before).position
        (Point.behind (before ++ block)).position :=
  exists_block_of_mem_docComments (fits_parse d.grammar t) h

/-- Columns count bytes, and an empty block is no comment. -/
example : (comments .javaScript "'é'; /** a */ f();\n/**/ /** b */".toList).map
    (fun c => (c.start, c.stop)) =
      [(some ⟨1, 6⟩, some ⟨1, 14⟩), (some ⟨2, 5⟩, some ⟨2, 13⟩)] := by
  decide +kernel

end Bookbinder.Script
