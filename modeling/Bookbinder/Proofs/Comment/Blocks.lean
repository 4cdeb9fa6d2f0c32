import Bookbinder.Comment.Parser
import Bookbinder.Comment.Printer
import Bookbinder.Proofs.Text.Trimming

/-!
# Reading a written block

A block is written as rows behind a gutter: the lines of the description, then a row for each tag.
Cleaning gives the rows back, trimmed, between two empty lines (`cleanLines_blockText`). Cutting them at
the tags separates the description from the tags again, and each tag keeps its name and its trimmed
value (`cutBlocks_rows`). So `parse_blockText` reads a written block as its description with the tags
filed in order.
-/

namespace Bookbinder

/-- The text of a block with these rows. -/
def blockText (rows : List Text) : Text :=
  "/**\n".toList ++ rows.flatMap (fun row => " * ".toList ++ row ++ ['\n']) ++ " */".toList

/-- The row of a tag with its value. -/
def Block.row (b : Block) : Text := '@' :: b.tag ++ ' ' :: b.value

/-- The block as it is read from its row. -/
def Block.trimmed (b : Block) : Block := ⟨b.tag, trim b.value⟩

/-! ## Delimiters and gutter -/

theorem lines_gutter {rows : List Text} (h : ∀ row ∈ rows, '\n' ∉ row) (rest : Text) :
    lines (rows.flatMap (fun row => " * ".toList ++ row ++ ['\n']) ++ rest) =
      rows.map (" * ".toList ++ ·) ++ lines rest := by
  induction rows with
  | nil => rfl
  | cons row rows ih =>
    have hrow : '\n' ∉ " * ".toList ++ row := by
      rw [List.mem_append, not_or]
      exact ⟨by decide, h row (by simp)⟩
    have hrest := ih fun r hr => h r (List.mem_cons_of_mem _ hr)
    rw [lines] at hrest
    rw [List.flatMap_cons, List.append_assoc, List.append_assoc, List.singleton_append, lines,
      splitWhen_append_cons (by simp), splitWhen_eq_singleton_of_not_mem hrow, hrest]
    rfl

/-- A row is found behind its gutter, trimmed. -/
theorem trim_gutter (row : Text) :
    trim (stripHead "*".toList (trim (" * ".toList ++ row))) = trim row := by
  have h : trim (" * ".toList ++ row) = '*' :: trimEnd (' ' :: row) := by
    show trim (' ' :: '*' :: ' ' :: row) = _
    rw [trim_cons_of_blank (by decide), trim_cons_of_not_blank (by decide)]
  rw [h]
  show trim (trimEnd (' ' :: row)) = _
  rw [trim_trimEnd, trim_cons_of_blank (by decide)]

theorem trim_blockText (rows : List Text) : trim (blockText rows) = blockText rows := by
  have h : trimStart (blockText rows) = blockText rows := by
    apply trimStart_eq_self
    intro x hx
    obtain rfl := Option.some.inj hx
    decide
  have hlast : blockText rows =
      ("/**\n".toList ++ rows.flatMap (fun row => " * ".toList ++ row ++ ['\n']) ++ [' ', '*']) ++
        '/' :: [] := by
    rw [List.append_assoc _ [' ', '*']]
    rfl
  rw [hlast] at h ⊢
  exact trim_append_cons h (by decide)

/-- The rows of a written block are read between the lines of its delimiters. -/
theorem cleanLines_blockText {rows : List Text} (h : ∀ row ∈ rows, '\n' ∉ row) :
    cleanLines (blockText rows) = [] :: rows.map trim ++ [[]] := by
  have hhead : stripHead "/**".toList (blockText rows) =
      ('\n' :: (rows.flatMap (fun row => " * ".toList ++ row ++ ['\n']) ++ [' '])) ++ "*/".toList := by
    have he : blockText rows = "/**".toList ++
        (('\n' :: (rows.flatMap (fun row => " * ".toList ++ row ++ ['\n']) ++ [' '])) ++
          "*/".toList) := by simp [blockText]
    rw [stripHead, he, stripHead?_append]
    rfl
  have hlines := lines_gutter h [' ']
  rw [lines] at hlines
  rw [cleanLines, trim_blockText, hhead, stripTail_append, lines, splitWhen_cons_of_pos (by simp),
    hlines, List.map_cons, List.map_append, List.map_map]
  have hrows : rows.map ((fun line => trim (stripHead "*".toList (trim line))) ∘
      (" * ".toList ++ ·)) = rows.map trim := List.map_congr_left fun row _ => trim_gutter row
  rw [hrows]
  rfl

/-! ## Tags -/

/-- The row of a tag is read as the tag with its value, also when an empty line follows. -/
theorem ofLines_row {b : Block} (h : HasNoBlank b.tag) {body : List Text}
    (hb : ∀ line ∈ body, line = []) :
    ∃ head, trim b.row = '@' :: head ∧ Block.ofLines head body = b.trimmed := by
  refine ⟨trimEnd (b.tag ++ ' ' :: b.value), trim_cons_of_not_blank (by decide) _, ?_⟩
  have hword : ∃ rest, splitWord (trimEnd (b.tag ++ ' ' :: b.value)) = (b.tag, rest) ∧
      trim rest = trim b.value := by
    by_cases hv : trimEnd (' ' :: b.value) = []
    · refine ⟨[], ?_, ?_⟩
      · rw [trimEnd_append, if_pos hv, trimEnd_eq_self h, splitWord_eq_self h]
      · rw [← trim_cons_of_blank (x := ' ') (by decide) b.value, trim_eq_nil_of_trimEnd hv]
        rfl
    · rw [trimEnd_append, if_neg hv]
      have hblank : trimEnd [' '] = [] := by decide
      have hvalue : trimEnd b.value ≠ [] := by
        intro he
        rw [← List.singleton_append, trimEnd_append, if_pos he] at hv
        exact hv hblank
      refine ⟨trimEnd b.value, ?_, trim_trimEnd _⟩
      rw [← List.singleton_append, trimEnd_append, if_neg hvalue]
      exact splitWord_append_blank h (by decide) _
  obtain ⟨rest, hw, hr⟩ := hword
  have hbody : body.filter (fun line => !line.isEmpty) = [] := by
    rw [List.filter_eq_nil_iff]
    intro line hl
    simp [hb line hl]
  unfold Block.ofLines
  rw [hw]
  show Block.mk b.tag (joinWith [' '] ((trim rest :: body).filter (fun line => !line.isEmpty))) = _
  rw [List.filter_cons, hbody, hr, Block.trimmed]
  split
  · rfl
  · rename_i he
    have he : trim b.value = [] := by simpa using he
    rw [he]
    rfl

theorem cutBlocks_cons_tag (head : Text) (rest : List Text) :
    cutBlocks (('@' :: head) :: rest) =
      ([], Block.ofLines head (cutBlocks rest).1 :: (cutBlocks rest).2) := rfl

theorem cutBlocks_cons_line {l : Text} (h : l.head? ≠ some '@') (rest : List Text) :
    cutBlocks (l :: rest) = (l :: (cutBlocks rest).1, (cutBlocks rest).2) := by
  rw [cutBlocks]
  obtain ⟨body, blocks⟩ := cutBlocks rest
  dsimp only
  split
  · simp at h
  · rfl

theorem cutBlocks_lines {ls : List Text} (h : ∀ l ∈ ls, l.head? ≠ some '@') (rest : List Text) :
    cutBlocks (ls ++ rest) = (ls ++ (cutBlocks rest).1, (cutBlocks rest).2) := by
  induction ls with
  | nil => rfl
  | cons l ls ih =>
    rw [List.cons_append, cutBlocks_cons_line (h l (by simp)),
      ih fun k hk => h k (List.mem_cons_of_mem _ hk)]
    rfl

/-- The rows of tags are cut into the tags. An empty line at the end is left over if there are none. -/
theorem cutBlocks_rows {bs : List Block} (h : ∀ b ∈ bs, HasNoBlank b.tag) :
    (∀ line ∈ (cutBlocks (bs.map (fun b => trim b.row) ++ [[]])).1, line = []) ∧
      (cutBlocks (bs.map (fun b => trim b.row) ++ [[]])).2 = bs.map Block.trimmed := by
  induction bs with
  | nil => decide
  | cons b bs ih =>
    obtain ⟨hbody, hblocks⟩ := ih fun c hc => h c (List.mem_cons_of_mem _ hc)
    obtain ⟨head, hrow, hb⟩ := ofLines_row (h b (by simp)) hbody
    rw [List.map_cons, List.cons_append, hrow, cutBlocks_cons_tag, List.map_cons, ← hb, ← hblocks]
    exact ⟨by simp, rfl⟩

/-! ## The description -/

theorem trim_joinWith_cons_nil (ls : List Text) :
    trim (joinWith ['\n'] ([] :: ls)) = trim (joinWith ['\n'] ls) := by
  cases ls with
  | nil => rfl
  | cons l ls => exact trim_cons_of_blank (x := '\n') (by decide) _

theorem trim_joinWith_concat_nil (ls : List Text) :
    trim (joinWith ['\n'] (ls ++ [[]])) = trim (joinWith ['\n'] ls) := by
  by_cases h : ls = []
  · subst h
    rfl
  · rw [joinWith_append _ h (by simp)]
    show trim (_ ++ ['\n'] ++ []) = _
    rw [List.append_nil, trim_concat_of_blank (by decide)]

/-- Empty lines around a description do not count. -/
theorem trim_joinWith_blank {blank : List Text} (h : ∀ l ∈ blank, l = []) (ls : List Text) :
    trim (joinWith ['\n'] ([] :: ls ++ blank)) = trim (joinWith ['\n'] ls) := by
  induction blank generalizing ls with
  | nil =>
    rw [List.append_nil]
    exact trim_joinWith_cons_nil ls
  | cons l blank ih =>
    have hl : l = [] := h l (by simp)
    have hstep := ih (fun k hk => h k (List.mem_cons_of_mem _ hk)) (ls ++ [l])
    rw [← List.cons_append, List.append_assoc, List.singleton_append] at hstep
    rw [hstep, hl, trim_joinWith_concat_nil]

/-- A written block is read as its description with its tags filed in order. -/
theorem parse_blockText {ls : List Text} {bs : List Block}
    (hl : ∀ l ∈ ls, '\n' ∉ l ∧ trim l = l ∧ l.head? ≠ some '@')
    (hb : ∀ b ∈ bs, '\n' ∉ b.row ∧ HasNoBlank b.tag) :
    Comment.parse (blockText (ls ++ bs.map Block.row)) =
      (bs.map Block.trimmed).foldl Comment.push { description := trim (joinWith ['\n'] ls) } := by
  have hrows : ∀ row ∈ ls ++ bs.map Block.row, '\n' ∉ row := by
    intro row hr
    rcases List.mem_append.1 hr with hr | hr
    · exact (hl row hr).1
    · obtain ⟨b, hb', rfl⟩ := List.mem_map.1 hr
      exact (hb b hb').1
  have htrim : ls.map trim = ls :=
    (List.map_congr_left fun l h => (hl l h).2.1).trans (List.map_id ls)
  have hclean : cleanLines (blockText (ls ++ bs.map Block.row)) =
      ([] :: ls) ++ (bs.map (fun b => trim b.row) ++ [[]]) := by
    rw [cleanLines_blockText hrows, List.map_append, htrim, List.map_map, List.cons_append,
      List.cons_append, List.append_assoc]
    rfl
  have hhead : ∀ l ∈ [] :: ls, l.head? ≠ some '@' := by
    simpa using fun l h => (hl l h).2.2
  have hcut := cutBlocks_lines hhead (bs.map (fun b => trim b.row) ++ [[]])
  obtain ⟨hblank, hblocks⟩ := cutBlocks_rows fun b h => (hb b h).2
  rw [hblocks] at hcut
  rw [Comment.parse, hclean, hcut]
  show (bs.map Block.trimmed).foldl Comment.push _ = _
  rw [trim_joinWith_blank hblank]

end Bookbinder
