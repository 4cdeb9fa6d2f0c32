import Bookbinder.Proofs.Script.Positions
import Mathlib.Data.List.Basic

/-!
# The comments of a tree as slices of its source

Whatever parser made a tree: if every node of it fits the source (`Tree.Fits`), the comments that the walk
collects are slices of the source, in order and apart from each other (`comments_are_slices`). The walk
takes the outermost comment nodes one after the other (`Tree.docComments_eq`); siblings follow each other,
so these nodes do (`Tree.pairwise_commentNodes`); and the text of each is a slice between its two points
(`Tree.exists_block_of_docComment?`).
-/

namespace Bookbinder.Script

/-! ## Finished blocks -/

/-- The text of a finished documentation block: the closing mark stands at its end, and nowhere else
behind the first two characters. -/
structure IsFinishedBlock (s : Text) : Prop where
  shape : ∃ body, s = "/**".toList ++ body ++ "*/".toList
  closed_once : ∀ u v, s.drop 2 = u ++ "*/".toList ++ v → v = []

/-- The end of a block is the end of the first closing mark. -/
theorem exists_of_blockEnd? {t : Text} {n : Nat} (h : blockEnd? t = some n) :
    ∃ u v, t = u ++ "*/".toList ++ v ∧ n = u.length + 2 ∧
      ∀ u' v', t = u' ++ "*/".toList ++ v' → u.length ≤ u'.length := by
  induction t using blockEnd?.induct generalizing n with
  | case1 => cases h
  | case2 cs =>
    refine ⟨[], cs, rfl, (Option.some.inj h).symm, fun u' v' _ => Nat.zero_le _⟩
  | case3 c cs hc ih =>
    rw [blockEnd?] at h
    · obtain ⟨m, hm, rfl⟩ := Option.map_eq_some_iff.1 h
      obtain ⟨u, v, rfl, rfl, hfirst⟩ := ih hm
      refine ⟨c :: u, v, rfl, rfl, fun u' v' hu => ?_⟩
      cases u' with
      | nil =>
        obtain ⟨rfl, htail⟩ := List.cons.inj hu
        exact (hc _ rfl htail).elim
      | cons y u' =>
        obtain ⟨rfl, htail⟩ := List.cons.inj hu
        exact Nat.succ_le_succ (hfirst u' v' htail)
    · exact hc

/-- A closed comment that starts like a documentation block is one, but for the shortest. -/
theorem isFinishedBlock_of_isDocBlock {s : Text} (hdoc : isDocBlock s) (hclosed : isClosed s) :
    IsFinishedBlock s ∧ s ≠ "/**/".toList := by
  rw [isDocBlock, Bool.and_eq_true, bne_iff_ne] at hdoc
  obtain ⟨hstart, hne⟩ := hdoc
  obtain ⟨rest, hrest⟩ := Option.isSome_iff_exists.1 hstart
  obtain rfl := stripHead?_eq_some hrest
  have hend : blockEnd? ('*' :: rest) = some ('*' :: rest).length := by simpa [isClosed] using hclosed
  obtain ⟨u, v, htail, hlen, hfirst⟩ := exists_of_blockEnd? hend
  have hv : v = [] := by
    have := congrArg List.length htail
    simp at this hlen
    exact List.length_eq_zero_iff.1 (by omega)
  refine ⟨⟨?_, fun u' v' hu => ?_⟩, hne⟩
  · cases u with
    | nil =>
      rw [hv] at htail
      exact absurd (congrArg ("/*".toList ++ ·) htail) hne
    | cons x body =>
      obtain ⟨rfl, hbody⟩ := List.cons.inj htail
      exact ⟨body, by rw [hbody, hv]; simp⟩
  · have hle := hfirst u' v' hu
    have := congrArg List.length (htail.symm.trans hu)
    simp [hv] at this
    exact List.length_eq_zero_iff.1 (by omega)

/-! ## Nodes -/

namespace Tree

mutual
/-- The nodes of a tree, the root first. -/
def nodes : Tree → List Tree
  | ⟨kind, startByte, stopByte, start, stop, children⟩ =>
    ⟨kind, startByte, stopByte, start, stop, children⟩ :: nodesOf children

/-- The nodes of trees that stand side by side. -/
def nodesOf : List Tree → List Tree
  | [] => []
  | n :: ns => n.nodes ++ nodesOf ns
end

mutual
/-- The comment nodes of a tree that are below no other, in order. -/
def commentNodes : Tree → List Tree
  | ⟨kind, startByte, stopByte, start, stop, children⟩ =>
    if kind = "comment" then [⟨kind, startByte, stopByte, start, stop, children⟩]
    else commentNodesOf children

/-- The outermost comment nodes of trees that stand side by side. -/
def commentNodesOf : List Tree → List Tree
  | [] => []
  | n :: ns => n.commentNodes ++ commentNodesOf ns
end

/-- To prove something of all trees, prove it of a tree whose children have it. -/
@[elab_as_elim, induction_eliminator]
theorem induction {motive : Tree → Prop} (node : ∀ n : Tree, (∀ c ∈ n.children, motive c) → motive n)
    (n : Tree) : motive n :=
  Tree.rec (motive_1 := motive) (motive_2 := fun ns => ∀ c ∈ ns, motive c)
    (fun kind startByte stopByte start stop children ih =>
      node ⟨kind, startByte, stopByte, start, stop, children⟩ ih)
    (fun _ h => nomatch h)
    (fun _ _ hn hns => List.forall_mem_cons.2 ⟨hn, hns⟩) n

theorem nodesOf_eq (ns : List Tree) : nodesOf ns = ns.flatMap nodes := by
  induction ns with
  | nil => rfl
  | cons n ns ih => rw [nodesOf, ih, List.flatMap_cons]

theorem commentNodesOf_eq (ns : List Tree) : commentNodesOf ns = ns.flatMap commentNodes := by
  induction ns with
  | nil => rfl
  | cons n ns ih => rw [commentNodesOf, ih, List.flatMap_cons]

theorem docCommentsOf_eq (t : Text) (ns : List Tree) :
    docCommentsOf t ns = ns.flatMap (docComments t) := by
  induction ns with
  | nil => rfl
  | cons n ns ih => rw [docCommentsOf, ih, List.flatMap_cons]

theorem nodes_eq (n : Tree) : n.nodes = n :: n.children.flatMap nodes := by
  cases n
  rw [nodes, nodesOf_eq]

theorem commentNodes_eq (n : Tree) :
    n.commentNodes = if n.kind = "comment" then [n] else n.children.flatMap commentNodes := by
  cases n
  rw [commentNodes, commentNodesOf_eq]

/-- One step of the walk. -/
theorem docComments_step (t : Text) (n : Tree) :
    n.docComments t =
      if n.kind = "comment" then (n.docComment? t).toList else n.children.flatMap (docComments t) := by
  cases n
  rw [docComments, docCommentsOf_eq]

/-- The walk reads the outermost comment nodes, one after the other. -/
theorem docComments_eq (t : Text) (n : Tree) :
    n.docComments t = n.commentNodes.filterMap (docComment? t) := by
  induction n with
  | node n ih =>
    rw [docComments_step, commentNodes_eq]
    split
    · cases h : n.docComment? t <;> simp [h]
    · rw [List.filterMap_flatMap]
      exact List.flatMap_congr ih

theorem mem_nodes_self (n : Tree) : n ∈ n.nodes := by
  rw [nodes_eq]
  exact List.mem_cons_self ..

theorem mem_nodes_of_mem_children {n c m : Tree} (hc : c ∈ n.children) (hm : m ∈ c.nodes) :
    m ∈ n.nodes := by
  rw [nodes_eq]
  exact List.mem_cons_of_mem _ (List.mem_flatMap.2 ⟨c, hc, hm⟩)

/-- What the walk stops at is a comment node of the tree. -/
theorem mem_of_mem_commentNodes {n m : Tree} (h : m ∈ n.commentNodes) :
    m ∈ n.nodes ∧ m.kind = "comment" := by
  induction n with
  | node n ih =>
    rw [commentNodes_eq] at h
    split at h
    · rename_i hk
      obtain rfl := List.mem_singleton.1 h
      exact ⟨mem_nodes_self m, hk⟩
    · obtain ⟨c, hc, hm⟩ := List.mem_flatMap.1 h
      obtain ⟨hnode, hk⟩ := ih c hc hm
      exact ⟨mem_nodes_of_mem_children hc hnode, hk⟩

/-! ## Trees that fit a source -/

/-- What a parser of `t` is relied on for at each node of its tree. -/
structure Fits (t : Text) (n : Tree) : Prop where
  /-- The points are those of the byte offsets. -/
  start : ∀ before ∈ takeBytes? t n.startByte, n.start = Point.behind before
  stop : ∀ before ∈ takeBytes? t n.stopByte, n.stop = Point.behind before
  /-- A comment node covers a whole comment. -/
  whole : n.kind = "comment" → isClosed (n.text t)
  /-- Siblings follow each other without overlap, with all that is below them. -/
  ordered : n.children.Pairwise fun a b => ∀ x ∈ a.nodes, ∀ y ∈ b.nodes, x.stopByte ≤ y.startByte

instance (t : Text) (n : Tree) : Decidable (n.Fits t) :=
  decidable_of_iff
    ((∀ before ∈ takeBytes? t n.startByte, n.start = Point.behind before) ∧
      (∀ before ∈ takeBytes? t n.stopByte, n.stop = Point.behind before) ∧
      (n.kind = "comment" → isClosed (n.text t)) ∧
      n.children.Pairwise fun a b => ∀ x ∈ a.nodes, ∀ y ∈ b.nodes, x.stopByte ≤ y.startByte)
    ⟨fun h => ⟨h.1, h.2.1, h.2.2.1, h.2.2.2⟩, fun h => ⟨h.1, h.2, h.3, h.4⟩⟩

variable {t : Text} {root n : Tree}

theorem pairwise_commentNodes (h : ∀ n ∈ root.nodes, n.Fits t) :
    root.commentNodes.Pairwise fun a b => a.stopByte ≤ b.startByte := by
  induction root with
  | node root ih =>
    rw [commentNodes_eq]
    split
    · exact List.pairwise_singleton _ _
    · refine List.pairwise_flatMap.2 ⟨fun c hc => ?_, ?_⟩
      · exact ih c hc fun n hn => h n (mem_nodes_of_mem_children hc hn)
      · refine (h root (mem_nodes_self root)).ordered.imp fun hab x hx y hy => ?_
        exact hab x (mem_of_mem_commentNodes hx).1 y (mem_of_mem_commentNodes hy).1

/-- A text between two byte offsets is a slice. -/
theorem exists_of_text_ne_nil (h : n.text t ≠ []) :
    ∃ before after, t = before ++ n.text t ++ after ∧
      takeBytes? t n.startByte = some before ∧
      takeBytes? t n.stopByte = some (before ++ n.text t) := by
  obtain ⟨s, hs⟩ : ∃ s, byteSlice? t n.startByte n.stopByte = some s := by
    refine Option.ne_none_iff_exists'.1 fun hnone => h ?_
    rw [text, hnone, Option.getD_none]
  obtain ⟨before, hstart, hrest⟩ := Option.bind_eq_some_iff.1 hs
  obtain ⟨upTo, hstop, hstrip⟩ := Option.bind_eq_some_iff.1 hrest
  obtain rfl := stripHead?_eq_some hstrip
  obtain ⟨⟨after, hafter⟩, -⟩ := takeBytes?_eq_some hstop
  rw [text, hs, Option.getD_some]
  exact ⟨before, after, hafter.symm, hstart, hstop⟩

/-- What a comment node documents is the reading of a finished block of the source that lies between the
offsets of the node. -/
theorem exists_block_of_docComment? (hfits : n.Fits t) (hk : n.kind = "comment") {c : Comment}
    (h : n.docComment? t = some c) :
    ∃ before block after, t = before ++ block ++ after ∧ IsFinishedBlock block ∧
      block ≠ "/**/".toList ∧ n.startByte = byteLength before ∧
      n.stopByte = byteLength (before ++ block) ∧
      c = (Comment.parse block).locate (Point.behind before).position
        (Point.behind (before ++ block)).position := by
  rw [docComment?] at h
  split at h
  · rename_i hdoc
    cases h
    have hne : n.text t ≠ [] := by
      intro hnil
      rw [hnil] at hdoc
      cases hdoc
    obtain ⟨before, after, ht, hstart, hstop⟩ := exists_of_text_ne_nil hne
    obtain ⟨hfin, hshort⟩ := isFinishedBlock_of_isDocBlock hdoc (hfits.whole hk)
    refine ⟨before, n.text t, after, ht, hfin, hshort, (takeBytes?_eq_some hstart).2.symm,
      (takeBytes?_eq_some hstop).2.symm, ?_⟩
    rw [hfits.start before hstart, hfits.stop _ hstop]
  · cases h

end Tree

/-! ## Comments -/

/-- The first comment ends before the second one starts. -/
def Precedes (a b : Comment) : Prop :=
  ∃ p q r, a.start = some p ∧ a.stop = some q ∧ b.start = some r ∧ p < q ∧ q ≤ r

theorem IsFinishedBlock.ne_nil {s : Text} (h : IsFinishedBlock s) : s ≠ [] := by
  rintro rfl
  obtain ⟨body, hbody⟩ := h.shape
  simp at hbody

section Trees

variable {t : Text} {root : Tree}

theorem exists_block_of_mem_docComments (h : ∀ n ∈ root.nodes, n.Fits t) {c : Comment}
    (hc : c ∈ root.docComments t) :
    ∃ before block after, t = before ++ block ++ after ∧ IsFinishedBlock block ∧
      block ≠ "/**/".toList ∧
      c = (Comment.parse block).locate (Point.behind before).position
        (Point.behind (before ++ block)).position := by
  rw [Tree.docComments_eq] at hc
  obtain ⟨n, hn, hread⟩ := List.mem_filterMap.1 hc
  obtain ⟨hnode, hk⟩ := Tree.mem_of_mem_commentNodes hn
  obtain ⟨before, block, after, ht, hfin, hshort, -, -, hread⟩ :=
    Tree.exists_block_of_docComment? (h n hnode) hk hread
  exact ⟨before, block, after, ht, hfin, hshort, hread⟩

/-- Comments of nodes that follow each other follow each other. -/
theorem pairwise_precedes_docComments (h : ∀ n ∈ root.nodes, n.Fits t) :
    (root.docComments t).Pairwise Precedes := by
  rw [Tree.docComments_eq, List.pairwise_filterMap]
  refine (Tree.pairwise_commentNodes h).imp_of_mem fun {m n} hm hn hle a ha b hb => ?_
  obtain ⟨hm, hmk⟩ := Tree.mem_of_mem_commentNodes hm
  obtain ⟨hn, hnk⟩ := Tree.mem_of_mem_commentNodes hn
  obtain ⟨u, s, u', ht, hs, -, -, hstop, rfl⟩ := Tree.exists_block_of_docComment? (h m hm) hmk ha
  obtain ⟨v, s', v', ht', -, -, hstart, -, rfl⟩ := Tree.exists_block_of_docComment? (h n hn) hnk hb
  have hp : u ++ s <+: v := by
    refine prefix_of_byteLength_le (t := t) ⟨u', ht.symm⟩ ⟨s' ++ v', ?_⟩ (by omega)
    rw [ht', List.append_assoc]
  obtain ⟨w, rfl⟩ := hp
  exact ⟨_, _, _, rfl, rfl, rfl, Point.position_lt_behind u hs.ne_nil, Point.position_le_behind _ w⟩

end Trees

theorem extract_eq_ok {parse : Grammar → Text → Option Tree} {d : Dialect} {t : Text}
    {cs : List Comment} (h : extract parse d t = .ok cs) :
    ∃ root, parse d.grammar t = some root ∧ cs = root.docComments t := by
  rw [extract] at h
  split at h
  · rename_i root hroot
    exact ⟨root, hroot, (Except.ok.inj h).symm⟩
  · cases h

/-- Let a parser make trees that fit. The comments extracted from a script are slices of it, in source
order and apart from each other. Each one lies between two positions of the script, and between these
stands a finished documentation block of which the comment is the reading. -/
theorem comments_are_slices (parse : Grammar → Text → Option Tree) (d : Dialect) (t : Text)
    (hparse : ∀ root ∈ parse d.grammar t, ∀ n ∈ root.nodes, n.Fits t) {cs : List Comment}
    (h : extract parse d t = .ok cs) :
    cs.Pairwise Precedes ∧
    ∀ c ∈ cs, ∃ start stop s, slice? t start stop = some s ∧
      c = (Comment.parse s).locate start stop ∧ IsFinishedBlock s ∧ s ≠ "/**/".toList ∧
      1 ≤ start.line ∧ start.line ≤ stop.line ∧ stop.line ≤ (lines t).length ∧ start < stop := by
  obtain ⟨root, hroot, rfl⟩ := extract_eq_ok h
  have hfits := hparse root hroot
  refine ⟨pairwise_precedes_docComments hfits, fun c hc => ?_⟩
  obtain ⟨before, block, after, rfl, hfin, hshort, rfl⟩ := exists_block_of_mem_docComments hfits hc
  have hlt := Point.position_lt_behind before hfin.ne_nil
  have hle := Point.position_le_behind before block
  exact ⟨_, _, block, slice?_behind before block after, rfl, hfin, hshort, Nat.le_add_left 1 _,
    Position.line_le_of_le hle, line_behind_le _ _, hlt⟩

/-- A class with a method, both documented. -/
def cafe : Text :=
  "/** A café. */\nclass Cafe \x7b\n  /** Opens it. */\n  open() \x7b\x7d\n\x7d\n".toList

/-- The syntax tree of `cafe`. One comment stands in front of the class and one among its members. -/
def cafeTree : Tree :=
  ⟨"program", 0, 62, ⟨0, 0⟩, ⟨5, 0⟩, [
    ⟨"comment", 0, 15, ⟨0, 0⟩, ⟨0, 15⟩, []⟩,
    ⟨"class_declaration", 16, 61, ⟨1, 0⟩, ⟨4, 1⟩, [
      ⟨"class", 16, 21, ⟨1, 0⟩, ⟨1, 5⟩, []⟩,
      ⟨"identifier", 22, 26, ⟨1, 6⟩, ⟨1, 10⟩, []⟩,
      ⟨"class_body", 27, 61, ⟨1, 11⟩, ⟨4, 1⟩, [
        ⟨"\x7b", 27, 28, ⟨1, 11⟩, ⟨1, 12⟩, []⟩,
        ⟨"comment", 31, 47, ⟨2, 2⟩, ⟨2, 18⟩, []⟩,
        ⟨"method_definition", 50, 59, ⟨3, 2⟩, ⟨3, 11⟩, [
          ⟨"property_identifier", 50, 54, ⟨3, 2⟩, ⟨3, 6⟩, []⟩,
          ⟨"formal_parameters", 54, 56, ⟨3, 6⟩, ⟨3, 8⟩, [
            ⟨"(", 54, 55, ⟨3, 6⟩, ⟨3, 7⟩, []⟩,
            ⟨")", 55, 56, ⟨3, 7⟩, ⟨3, 8⟩, []⟩]⟩,
          ⟨"statement_block", 57, 59, ⟨3, 9⟩, ⟨3, 11⟩, [
            ⟨"\x7b", 57, 58, ⟨3, 9⟩, ⟨3, 10⟩, []⟩,
            ⟨"\x7d", 58, 59, ⟨3, 10⟩, ⟨3, 11⟩, []⟩]⟩]⟩,
        ⟨"\x7d", 60, 61, ⟨4, 0⟩, ⟨4, 1⟩, []⟩]⟩]⟩]⟩

theorem comments_are_slices_cafe :
    (∀ root ∈ some cafeTree, ∀ n ∈ root.nodes, n.Fits cafe) ∧
    ∃ cs, extract (fun _ _ => some cafeTree) .javaScript cafe = .ok cs ∧
      cs.map (fun c => (c.start, c.stop)) =
        [(some ⟨1, 0⟩, some ⟨1, 15⟩), (some ⟨3, 2⟩, some ⟨3, 18⟩)] ∧
      cs.Pairwise Precedes ∧
      ∀ c ∈ cs, ∃ start stop s, slice? cafe start stop = some s ∧
        c = (Comment.parse s).locate start stop ∧ IsFinishedBlock s ∧ s ≠ "/**/".toList ∧
        1 ≤ start.line ∧ start.line ≤ stop.line ∧ stop.line ≤ (lines cafe).length ∧
        start < stop := by
  have hfits : ∀ root ∈ some cafeTree, ∀ n ∈ root.nodes, n.Fits cafe := by decide +kernel
  refine ⟨hfits, cafeTree.docComments cafe, rfl, by decide +kernel, ?_⟩
  exact comments_are_slices (fun _ _ => some cafeTree) .javaScript cafe hfits rfl

end Bookbinder.Script
