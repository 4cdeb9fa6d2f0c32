import Bookbinder.Path
import Bookbinder.Proofs.Text.Cutting

/-!
# The steps of a path

A path is its lead (a slash, a dot or nothing) and its steps, the pieces between slashes that are
neither empty nor a dot (`components_eq`). Joining a name to a path adds one step (`steps_join`,
`components_join`). Writing the components of a path out again changes neither its lead nor its steps
(`lead_normal`, `steps_normal`), so it keeps the components (`components_normal`).
-/

namespace Bookbinder

namespace Path

/-- The piece counts when a path is followed. -/
def isStep (piece : Text) : Bool := !decide (piece = [] ∨ piece = ['.'])

/-- The pieces of a path that count. -/
def steps (p : Path) : List Text := (splitWhen (· == '/') p).filter isStep

/-- The component of a step. -/
def Component.ofStep (step : Text) : Component := if step = ['.', '.'] then parent else name step

/-- The component in front of the steps. -/
def lead (p : Path) : List Component :=
  if p.head? = some '/' then [.root]
  else if (splitWhen (· == '/') p).head? = some ['.'] then [.current]
  else []

/-- A text that names an entry of a directory. -/
structure IsName (n : Text) : Prop where
  ne_nil : n ≠ []
  ne_dot : n ≠ ['.']
  ne_parent : n ≠ ['.', '.']
  slash : '/' ∉ n

instance (n : Text) : Decidable (IsName n) :=
  decidable_of_iff (n ≠ [] ∧ n ≠ ['.'] ∧ n ≠ ['.', '.'] ∧ '/' ∉ n)
    ⟨fun ⟨h₁, h₂, h₃, h₄⟩ => ⟨h₁, h₂, h₃, h₄⟩, fun h => ⟨h.ne_nil, h.ne_dot, h.ne_parent, h.slash⟩⟩

/-! ## Lead and steps -/

theorem isStep_iff {piece : Text} : isStep piece ↔ ¬(piece = [] ∨ piece = ['.']) := by
  simp [isStep]

theorem filterMap_ofPiece? (ps : List Text) :
    ps.filterMap Component.ofPiece? = (ps.filter isStep).map Component.ofStep := by
  induction ps with
  | nil => rfl
  | cons piece ps ih =>
    rw [List.filterMap_cons, List.filter_cons, Component.ofPiece?]
    by_cases hp : piece = [] ∨ piece = ['.']
    · rw [if_pos hp, if_neg (by simp [isStep, hp])]
      exact ih
    · rw [if_neg hp, if_pos (isStep_iff.2 hp), List.map_cons, Component.ofStep, ih]
      by_cases hd : piece = ['.', '.']
      · rw [if_pos hd, if_pos hd]
      · rw [if_neg hd, if_neg hd]

/-- A path is its lead and its steps. -/
theorem components_eq (p : Path) : p.components = p.lead ++ p.steps.map Component.ofStep := by
  rw [steps, ← filterMap_ofPiece?]
  rfl

@[simp]
theorem text_ofStep (step : Text) : (Component.ofStep step).text = step := by
  unfold Component.ofStep
  split
  · exact Eq.symm ‹_›
  · rfl

theorem map_text_ofStep (ss : List Text) : (ss.map Component.ofStep).map Component.text = ss := by
  simp [Function.comp_def]

theorem isAbsolute_eq (p : Path) : p.isAbsolute = decide (p.lead = [.root]) := by
  unfold isAbsolute lead
  split
  · simp_all
  · split <;> simp_all

theorem slash_not_mem_of_mem_steps {p : Path} {s : Text} (h : s ∈ p.steps) : '/' ∉ s := by
  intro hs
  have := of_mem_splitWhen (List.mem_filter.1 h).1 '/' hs
  simp at this

theorem isStep_of_mem_steps {p : Path} {s : Text} (h : s ∈ p.steps) : isStep s :=
  (List.mem_filter.1 h).2

/-! ## Joining a name -/

section Join

variable {n : Text}

theorem IsName.isStep (hn : IsName n) : Path.isStep n := by
  rw [isStep_iff]
  rintro (h | h)
  · exact hn.ne_nil h
  · exact hn.ne_dot h

theorem IsName.head?_ne (hn : IsName n) : n.head? ≠ some '/' :=
  fun h => hn.slash (List.mem_of_mem_head? h)

theorem IsName.splitWhen_eq (hn : IsName n) : splitWhen (· == '/') n = [n] :=
  splitWhen_eq_singleton_of_not_mem hn.slash

/-- A joined name is the whole path or stands behind a slash, which the path had or gets. -/
theorem join_cases (p : Path) (hn : IsName n) :
    (p = [] ∧ p.join n = n) ∨
      ∃ q, p.join n = q ++ '/' :: n ∧ ((p = q ∧ p ≠ []) ∨ p = q ++ ['/']) := by
  have ha : ¬isAbsolute n := by simpa [isAbsolute] using hn.head?_ne
  unfold join
  rw [if_neg ha]
  by_cases hp : p = []
  · subst hp
    exact .inl ⟨rfl, by simp⟩
  · refine .inr ?_
    split
    · rename_i h
      obtain ⟨q, rfl⟩ := List.getLast?_eq_some_iff.1 (h.resolve_left hp)
      exact ⟨q, by simp, .inr rfl⟩
    · exact ⟨p, rfl, .inl ⟨rfl, hp⟩⟩

/-- The pieces of a joined name: the pieces of the path less an empty last one, and the name. -/
theorem splitWhen_join (p : Path) (hn : IsName n) :
    ∃ ps, splitWhen (· == '/') (p.join n) = ps ++ [n] ∧ ps.filter isStep = p.steps := by
  rcases join_cases p hn with ⟨rfl, hj⟩ | ⟨q, hj, hq⟩
  · exact ⟨[], by rw [hj, hn.splitWhen_eq]; rfl, rfl⟩
  · refine ⟨splitWhen (· == '/') q, ?_, ?_⟩
    · rw [hj, splitWhen_append_cons (by simp), hn.splitWhen_eq]
    · rcases hq with ⟨rfl, -⟩ | rfl
      · rfl
      · rw [steps, splitWhen_append_cons (by simp), List.filter_append]
        simp [splitWhen, isStep]

theorem steps_join (p : Path) (hn : IsName n) : (p.join n).steps = p.steps ++ [n] := by
  obtain ⟨ps, hs, hf⟩ := splitWhen_join p hn
  rw [steps, hs, List.filter_append, hf, List.filter_cons_of_pos hn.isStep, List.filter_nil]

theorem lead_join (p : Path) (hn : IsName n) : (p.join n).lead = p.lead := by
  rcases join_cases p hn with ⟨rfl, hj⟩ | ⟨q, hj, hq⟩
  · have hd : ¬([n] : List Text).head? = some ['.'] := by simpa using hn.ne_dot
    rw [hj, lead, if_neg hn.head?_ne, hn.splitWhen_eq, if_neg hd]
    rfl
  · obtain ⟨piece, ps, hs⟩ := List.exists_cons_of_ne_nil (splitWhen_ne_nil (· == '/') q)
    have hh : (p.join n).head? = p.head? := by
      rw [hj]
      rcases hq with ⟨rfl, hp⟩ | rfl
      · obtain ⟨x, p, rfl⟩ := List.exists_cons_of_ne_nil hp
        rfl
      · cases q <;> rfl
    have hw : (splitWhen (· == '/') (p.join n)).head? = (splitWhen (· == '/') p).head? := by
      rw [hj, splitWhen_append_cons (by simp), hs]
      rcases hq with ⟨rfl, -⟩ | rfl
      · rw [hs]
        rfl
      · rw [splitWhen_append_cons (by simp), hs]
        rfl
    rw [lead, hh, hw]
    rfl

theorem components_join (p : Path) (hn : IsName n) :
    (p.join n).components = p.components ++ [.name n] := by
  have h : Component.ofStep n = .name n := if_neg hn.ne_parent
  rw [components_eq, components_eq, lead_join p hn, steps_join p hn, List.map_append,
    List.append_assoc, List.map_singleton, h]

theorem isAbsolute_join (p : Path) (hn : IsName n) : (p.join n).isAbsolute = p.isAbsolute := by
  rw [isAbsolute_eq, isAbsolute_eq, lead_join p hn]

theorem join_ne_nil (p : Path) (hn : IsName n) : p.join n ≠ [] := by
  rcases join_cases p hn with ⟨-, hj⟩ | ⟨q, hj, -⟩
  · rw [hj]
    exact hn.ne_nil
  · simp [hj]

/-- A path behind a name is joined with a slash. -/
theorem join_join (p : Path) (hn : IsName n) {q : Path} (hq : q.isAbsolute = false) :
    (p.join n).join q = p.join (n ++ '/' :: q) := by
  have hlast : (p.join n).getLast? = n.getLast? := by
    obtain ⟨-, hj⟩ | ⟨p', hj, -⟩ := join_cases p hn
    · rw [hj]
    · obtain ⟨x, n, rfl⟩ := List.exists_cons_of_ne_nil hn.ne_nil
      rw [hj, List.getLast?_append, List.getLast?_cons_cons, List.getLast?_cons]
      rfl
  have hslash : ¬(p.join n = [] ∨ (p.join n).getLast? = some '/') := by
    rintro (h | h)
    · exact join_ne_nil p hn h
    · rw [hlast] at h
      exact hn.slash (List.mem_of_getLast? h)
  have habs : isAbsolute n = false := by simpa [isAbsolute] using hn.head?_ne
  have habs' : isAbsolute (n ++ '/' :: q) = false := by
    obtain ⟨x, n, rfl⟩ := List.exists_cons_of_ne_nil hn.ne_nil
    exact habs
  rw [join, if_neg hslash, hq]
  simp only [Bool.false_eq_true, if_false, join, habs, habs']
  split <;> simp

end Join

/-- Names from a directory down to an entry below it. -/
structure AreNames (ns : List Text) : Prop where
  ne_nil : ns ≠ []
  isName : ∀ n ∈ ns, IsName n

/-- Names joined by slashes can be told apart again. -/
theorem AreNames.joinWith_inj {ns ns' : List Text} (h : AreNames ns) (h' : AreNames ns')
    (he : joinWith ['/'] ns = joinWith ['/'] ns') : ns = ns' := by
  obtain ⟨n, ns, rfl⟩ := List.exists_cons_of_ne_nil h.ne_nil
  obtain ⟨n', ns', rfl⟩ := List.exists_cons_of_ne_nil h'.ne_nil
  have hs := congrArg (splitWhen (· == '/')) he
  rwa [splitWhen_joinWith fun m hm => (h.isName m hm).slash,
    splitWhen_joinWith fun m hm => (h'.isName m hm).slash] at hs

/-! ## Writing the components out -/

/-- What can stand in front of steps, and steps. -/
structure AreParts (lead : List Component) (ss : List Text) : Prop where
  lead : lead = [.root] ∨ lead = [.current] ∨ lead = []
  step : ∀ s ∈ ss, isStep s
  slash : ∀ s ∈ ss, '/' ∉ s

theorem areParts (p : Path) : AreParts p.lead p.steps where
  lead := by
    unfold lead
    split
    · exact .inl rfl
    · split
      · exact .inr (.inl rfl)
      · exact .inr (.inr rfl)
  step _ h := isStep_of_mem_steps h
  slash _ h := slash_not_mem_of_mem_steps h

theorem AreParts.of_append {l : List Component} {ss ss' : List Text} (h : AreParts l (ss ++ ss')) :
    AreParts l ss :=
  ⟨h.lead, fun s hs => h.step s (by simp [hs]), fun s hs => h.slash s (by simp [hs])⟩

/-- The path with a lead and steps. -/
def ofParts (l : List Component) (ss : List Text) : Path :=
  ofComponents (l ++ ss.map Component.ofStep)

/-- The path written with its components only. -/
def normal (p : Path) : Path := ofComponents p.components

theorem normal_eq_ofParts (p : Path) : p.normal = ofParts p.lead p.steps := by
  rw [normal, components_eq]
  rfl

theorem steps_joinWith {ss : List Text} (h : ∀ s ∈ ss, '/' ∉ s) :
    steps (joinWith ['/'] ss) = ss.filter isStep := by
  cases ss with
  | nil => rfl
  | cons s ss => rw [steps, splitWhen_joinWith h]

section Parts

variable {l : List Component} {ss : List Text}

/-- How a path is written out, by its lead. -/
theorem AreParts.cases (h : AreParts l ss) :
    (l = [.root] ∧ ofParts l ss = '/' :: joinWith ['/'] ss) ∨
      (l = [.current] ∧ ofParts l ss = joinWith ['/'] (['.'] :: ss)) ∨
      (l = [] ∧ ofParts l ss = joinWith ['/'] ss) := by
  rw [ofParts]
  rcases h.lead with rfl | rfl | rfl
  · exact .inl ⟨rfl, by rw [List.singleton_append, ofComponents, map_text_ofStep]⟩
  · refine .inr (.inl ⟨rfl, ?_⟩)
    rw [List.singleton_append, ofComponents, List.map_cons, map_text_ofStep]
    · rfl
    · simp
  · refine .inr (.inr ⟨rfl, ?_⟩)
    rw [List.nil_append, ofComponents, map_text_ofStep]
    -- A step is never read as the root.
    intro rest hr
    cases ss with
    | nil => simp at hr
    | cons s ss =>
      rw [List.map_cons, List.cons.injEq, Component.ofStep] at hr
      split at hr <;> simp at hr

theorem AreParts.filter_isStep (h : AreParts l ss) : ss.filter isStep = ss :=
  List.filter_eq_self.2 h.step

theorem AreParts.steps_ofParts (h : AreParts l ss) : (ofParts l ss).steps = ss := by
  rcases h.cases with ⟨-, he⟩ | ⟨-, he⟩ | ⟨-, he⟩
  · rw [he, steps, splitWhen_cons_of_pos (by simp), List.filter_cons_of_neg (by simp [isStep])]
    exact (steps_joinWith h.slash).trans h.filter_isStep
  · rw [he, steps_joinWith, List.filter_cons_of_neg (by simp [isStep]), h.filter_isStep]
    simpa using h.slash
  · rw [he, steps_joinWith h.slash, h.filter_isStep]

theorem AreParts.lead_ofParts (h : AreParts l ss) : (ofParts l ss).lead = l := by
  rcases h.cases with ⟨rfl, he⟩ | ⟨rfl, he⟩ | ⟨rfl, he⟩
  · rw [he]
    rfl
  · have hs : ∀ s ∈ ['.'] :: ss, '/' ∉ s := by simpa using h.slash
    have hh : (ofParts [.current] ss).head? = some '.' := by
      rw [he]
      cases ss <;> rfl
    rw [Path.lead, if_neg (by simp [hh]), he, splitWhen_joinWith hs]
    rfl
  · rw [he]
    cases ss with
    | nil => rfl
    | cons s ss =>
      have hne := isStep_iff.1 (h.step s (by simp))
      have hsl := h.slash s (by simp)
      obtain ⟨x, s, rfl⟩ := List.exists_cons_of_ne_nil fun he => hne (.inl he)
      have hh : (joinWith ['/'] ((x :: s) :: ss)).head? = some x := by cases ss <;> rfl
      rw [Path.lead, if_neg, splitWhen_joinWith h.slash, if_neg]
      · simpa using fun he => hne (.inr he)
      · rw [hh, Option.some.injEq]
        rintro rfl
        exact hsl (List.mem_cons_self ..)

/-- Writing components out and reading them again changes nothing. -/
theorem AreParts.components_ofParts (h : AreParts l ss) :
    (ofParts l ss).components = l ++ ss.map Component.ofStep := by
  rw [components_eq, h.lead_ofParts, h.steps_ofParts]

theorem AreParts.fileName?_ofParts {n : Text} (h : AreParts l (ss ++ [n])) (hn : IsName n) :
    (ofParts l (ss ++ [n])).fileName? = some n := by
  have hname : Component.ofStep n = .name n := if_neg hn.ne_parent
  rw [fileName?, h.components_ofParts, List.map_append, List.map_singleton, hname,
    ← List.append_assoc, List.getLast?_concat]

/-- Names joined by slashes are a path to a file of the last name. -/
theorem fileName?_joinWith {n : Text} (h : ∀ m ∈ ss ++ [n], IsName m) :
    fileName? (joinWith ['/'] (ss ++ [n])) = some n := by
  have hparts : AreParts [] (ss ++ [n]) :=
    ⟨.inr (.inr rfl), fun m hm => (h m hm).isStep, fun m hm => (h m hm).slash⟩
  obtain ⟨hl, -⟩ | ⟨hl, -⟩ | ⟨-, he⟩ := hparts.cases
  · exact absurd hl (by simp)
  · exact absurd hl (by simp)
  · rw [← he, hparts.fileName?_ofParts (h n (by simp))]

end Parts

theorem steps_normal (p : Path) : p.normal.steps = p.steps := by
  rw [normal_eq_ofParts, p.areParts.steps_ofParts]

theorem lead_normal (p : Path) : p.normal.lead = p.lead := by
  rw [normal_eq_ofParts, p.areParts.lead_ofParts]

/-- Writing a path out keeps its components. -/
theorem components_normal (p : Path) : p.normal.components = p.components := by
  rw [components_eq, lead_normal, steps_normal, ← components_eq]

theorem isAbsolute_normal (p : Path) : p.normal.isAbsolute = p.isAbsolute := by
  rw [isAbsolute_eq, isAbsolute_eq, lead_normal]

/-! ## Extensions -/

/-- A name is cut at its last dot, unless that comes first. -/
theorem cutName_append_dot {ext : Text} (h : '.' ∉ ext) (stem : Text) :
    cutName (stem ++ '.' :: ext) =
      if stem = [] then (stem ++ '.' :: ext, none) else (stem, some ext) := by
  have hsplit : splitOnce (· == '.') (stem ++ '.' :: ext).reverse =
      some (ext.reverse, stem.reverse) := by
    rw [List.reverse_append, List.reverse_cons, List.append_assoc, List.singleton_append]
    refine splitOnce_append_cons (fun y hy => ?_) (by simp) _
    rw [beq_eq_false_iff_ne]
    rintro rfl
    exact h (List.mem_reverse.1 hy)
  unfold cutName
  rw [hsplit]
  cases hs : stem.reverse with
  | nil => rw [if_pos (List.reverse_eq_nil_iff.1 hs)]
  | cons x rest =>
    have hne : stem ≠ [] := by
      rintro rfl
      simp at hs
    rw [if_neg hne]
    show ((x :: rest).reverse, some ext.reverse.reverse) = _
    rw [← hs, List.reverse_reverse, List.reverse_reverse]

/-- The extension stands behind the last dot of the name, and something stands before that dot. -/
def HasExtension (n ext : Text) : Prop := ∃ stem, stem ≠ [] ∧ '.' ∉ ext ∧ n = stem ++ '.' :: ext

theorem cutName_eq_some_iff {n ext : Text} : (cutName n).2 = some ext ↔ HasExtension n ext := by
  constructor
  · intro h
    unfold cutName at h
    split at h
    · simp at h
    · simp at h
    · rename_i after before hne hs
      obtain ⟨x, hx, hn, hafter⟩ := exists_of_splitOnce hs
      obtain rfl : x = '.' := beq_iff_eq.1 hx
      obtain rfl : after.reverse = ext := Option.some.inj h
      refine ⟨before.reverse, fun hb => hne (List.reverse_eq_nil_iff.1 hb), fun hd => ?_, ?_⟩
      · simpa using hafter '.' (List.mem_reverse.1 hd)
      · rw [← List.reverse_reverse n, hn]
        simp
  · rintro ⟨stem, hne, hdot, rfl⟩
    rw [cutName_append_dot hdot, if_neg hne]

end Path

end Bookbinder
