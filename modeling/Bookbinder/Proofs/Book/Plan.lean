import Bookbinder.Book.Writer
import Bookbinder.Proofs.Disk.Following

/-!
# Plans

A plan lists what is to be made below a directory: directories and pages, each with its location. It is
carried out by one action per entry. Where every entry lies in a directory that is there already or
made before it (`Plan.Rooted`), no two entries have one location and nothing is at their locations yet,
the actions put exactly the entries of the plan on the disk, or fail at a name that is too long
(`runAll_actions`). `Plan.within` nests plans; it keeps both conditions (`rooted_within`,
`nodup_keys_within`).
-/

namespace Bookbinder

/-- What is to be made at a location. -/
inductive Planned where
  | directory
  | page (text : Text)

namespace Planned

/-- The node that is made. -/
def node : Planned → Node
  | directory => .directory
  | page t => .file (Disk.encode t)

/-- The action that makes it at a path. -/
def action (p : Path) : Planned → Action
  | directory => .makeDirectories p
  | page t => .write p t

end Planned

/-- What is to be made below a directory, in order. -/
abbrev Plan := List (Location × Planned)

namespace Plan

/-- The path of a location below the directory of a path. -/
def pathOf (out : Path) (loc : Location) : Path := loc.foldl Path.join out

/-- Makes the entries of a plan below the directory of a path. -/
def actions (out : Path) (es : Plan) : List Action := es.map fun e => e.2.action (pathOf out e.1)

/-- The locations of the entries. -/
def keys (es : Plan) : List Location := es.map (·.1)

/-- A directory with the entries of a plan in it. -/
def within (dir : Text) (es : Plan) : Plan := ([dir], .directory) :: es.map fun e => (dir :: e.1, e.2)

/-- The disk with the entries of a plan below a location. -/
def made (d : Disk) (loc : Location) (es : Plan) : Disk :=
  es.foldl (fun d e => d.put (loc ++ e.1) e.2.node) d

/-- The pages of a plan with their locations. -/
def pages (es : Plan) : List (Location × Text) :=
  es.filterMap fun
    | (key, .page t) => some (key, t)
    | (_, .directory) => none

/-- Each entry lies in one of the directories or in one made before it, under a proper name. -/
def Rooted (dirs : List Location) : Plan → Prop
  | [] => True
  | (loc, x) :: es =>
    (∃ dir ∈ dirs, ∃ n, Path.IsName n ∧ loc = dir ++ [n]) ∧
      match x with
      | .directory => Rooted (loc :: dirs) es
      | .page _ => Rooted dirs es

/-- Nothing is at the locations of the entries. -/
def Fresh (d : Disk) (loc : Location) (es : Plan) : Prop :=
  ∀ key ∈ es.keys, d.node? (loc ++ key) = none

/-- Some name in the plan is too long for a disk. -/
def HasLongName (es : Plan) : Prop := ∃ key ∈ es.keys, ∃ n ∈ key, Disk.maxName < byteLength n

/-! ## Actions -/

theorem actions_cons (out : Path) (e : Location × Planned) (es : Plan) :
    actions out (e :: es) = e.2.action (pathOf out e.1) :: actions out es := rfl

theorem actions_append (out : Path) (es es' : Plan) :
    actions out (es ++ es') = actions out es ++ actions out es' := List.map_append

theorem actions_within (out : Path) (dir : Text) (es : Plan) :
    actions out (within dir es) = .makeDirectories (out.join dir) :: actions (out.join dir) es := by
  rw [within, actions_cons, actions, List.map_map]
  rfl

theorem actions_flatMap {α : Type} (out : Path) (l : List α) (f : α → Plan) :
    actions out (l.flatMap f) = l.flatMap fun a => actions out (f a) := by
  rw [actions, List.map_flatMap]
  rfl

theorem pathOf_concat (out : Path) (loc : Location) (n : Text) :
    pathOf out (loc ++ [n]) = (pathOf out loc).join n := by
  rw [pathOf, List.foldl_append]
  rfl

/-! ## Pages -/

theorem mem_pages {es : Plan} {key : Location} {t : Text} :
    (key, t) ∈ es.pages ↔ (key, .page t) ∈ es := by
  rw [pages, List.mem_filterMap]
  constructor
  · rintro ⟨⟨key', x⟩, hm, he⟩
    cases x with
    | directory => simp at he
    | page t' =>
      cases he
      exact hm
  · exact fun hm => ⟨_, hm, rfl⟩

theorem keys_pages_sublist (es : Plan) : (es.pages.map (·.1)).Sublist es.keys := by
  induction es with
  | nil => exact .slnil
  | cons e es ih =>
    obtain ⟨key, x⟩ := e
    cases x with
    | directory => exact ih.cons key
    | page t => exact ih.cons_cons key

theorem pages_map_page {α : Type} (l : List α) (key : α → Location) (text : α → Text) :
    pages (l.map fun a => (key a, .page (text a))) = l.map fun a => (key a, text a) := by
  induction l with
  | nil => rfl
  | cons a l ih => exact congrArg ((key a, text a) :: ·) ih

theorem pages_within (dir : Text) (es : Plan) :
    (within dir es).pages = es.pages.map fun f => (dir :: f.1, f.2) := by
  rw [within, pages, List.filterMap_cons_none rfl, List.filterMap_map, pages, List.map_filterMap]
  congr 1
  funext ⟨key, x⟩
  cases x <;> rfl

theorem pages_flatMap {α : Type} (l : List α) (f : α → Plan) :
    pages (l.flatMap f) = l.flatMap fun a => (f a).pages := List.filterMap_flatMap

/-! ## What is made -/

section Made

variable {d : Disk} {loc l : Location} {es : Plan}

theorem made_cons (d : Disk) (loc : Location) (e : Location × Planned) (es : Plan) :
    made d loc (e :: es) = made (d.put (loc ++ e.1) e.2.node) loc es := rfl

theorem workDir_made : (made d loc es).workDir = d.workDir := by
  induction es generalizing d with
  | nil => rfl
  | cons e es ih => rw [made_cons, ih, Disk.workDir_put]

/-- Other nodes stay as they are. -/
theorem node?_made_of_ne (h : ∀ key ∈ es.keys, l ≠ loc ++ key) :
    (made d loc es).node? l = d.node? l := by
  induction es generalizing d with
  | nil => rfl
  | cons e es ih =>
    rw [made_cons, ih fun key hk => h key (List.mem_cons_of_mem _ hk),
      Disk.node?_put_of_ne (h e.1 (List.mem_cons_self ..))]

theorem node?_made_of_not_mem {key : Location} (h : key ∉ es.keys) :
    (made d loc es).node? (loc ++ key) = d.node? (loc ++ key) := by
  refine node?_made_of_ne fun key' hk he => ?_
  rw [List.append_cancel_left he] at h
  exact h hk

/-- Each entry is made, if no later one takes its location. -/
theorem node?_made_of_mem (hd : es.keys.Nodup) (hne : [] ∉ es.keys) {e : Location × Planned}
    (h : e ∈ es) : (made d loc es).node? (loc ++ e.1) = some e.2.node := by
  induction es generalizing d with
  | nil => simp at h
  | cons e' es ih =>
    obtain ⟨hn, hd⟩ := List.nodup_cons.1 hd
    rw [keys, List.map_cons, List.mem_cons, not_or] at hne
    rw [made_cons]
    rcases List.mem_cons.1 h with rfl | h
    · have hl : loc ++ e.1 ≠ [] := fun he => hne.1 (List.append_eq_nil_iff.1 he).2.symm
      rw [node?_made_of_not_mem hn, Disk.node?_put_self hl]
    · exact ih hd hne.2 h

theorem Fresh.keeps_made (h : Fresh d loc es) : Disk.Keeps d (made d loc es) := by
  refine ⟨workDir_made, fun {l n} hl => ?_⟩
  rw [node?_made_of_ne]
  · exact hl
  · rintro key hk rfl
    rw [h key hk] at hl
    simp at hl

end Made

/-! ## Nested plans -/

section Nested

variable {α : Type} {dirs dirs' : List Location} {dir : Text} {es es' : Plan}

theorem Rooted.mono (h : Rooted dirs es) (hs : dirs ⊆ dirs') : Rooted dirs' es := by
  induction es generalizing dirs dirs' with
  | nil => trivial
  | cons e es ih =>
    obtain ⟨key, x⟩ := e
    obtain ⟨⟨dir, hdir, hn⟩, h⟩ := h
    refine ⟨⟨dir, hs hdir, hn⟩, ?_⟩
    cases x with
    | directory => exact ih h (List.cons_subset_cons _ hs)
    | page t => exact ih h hs

theorem Rooted.append (h : Rooted dirs es) (h' : Rooted dirs es') : Rooted dirs (es ++ es') := by
  induction es generalizing dirs with
  | nil => exact h'
  | cons e es ih =>
    obtain ⟨key, x⟩ := e
    refine ⟨h.1, ?_⟩
    cases x with
    | directory => exact ih h.2 (h'.mono (List.subset_cons_self ..))
    | page t => exact ih h.2 h'

theorem rooted_flatMap {l : List α} {f : α → Plan} (h : ∀ a ∈ l, Rooted dirs (f a)) :
    Rooted dirs (l.flatMap f) := by
  induction l with
  | nil => trivial
  | cons a l ih =>
    rw [List.flatMap_cons]
    exact (h a (by simp)).append (ih fun b hb => h b (List.mem_cons_of_mem _ hb))

/-- A page straight in the directory of the plan. -/
theorem rooted_page_cons {n : Text} (hn : Path.IsName n) (t : Text) (h : Rooted [[]] es) :
    Rooted [[]] (([n], .page t) :: es) := ⟨⟨[], by simp, n, hn, rfl⟩, h⟩

theorem rooted_pages {l : List α} {name text : α → Text} (h : ∀ a ∈ l, Path.IsName (name a)) :
    Rooted [[]] (l.map fun a => ([name a], .page (text a))) := by
  induction l with
  | nil => trivial
  | cons a l ih =>
    exact rooted_page_cons (h a (by simp)) _ (ih fun b hb => h b (List.mem_cons_of_mem _ hb))

theorem Rooted.cons_keys (h : Rooted dirs es) (dir : Text) :
    Rooted (dirs.map (dir :: ·)) (es.map fun e => (dir :: e.1, e.2)) := by
  induction es generalizing dirs with
  | nil => trivial
  | cons e es ih =>
    obtain ⟨key, x⟩ := e
    obtain ⟨⟨dir', hdir, n, hn, rfl⟩, h⟩ := h
    refine ⟨⟨dir :: dir', List.mem_map_of_mem hdir, n, hn, rfl⟩, ?_⟩
    cases x with
    | directory => exact ih h
    | page t => exact ih h

theorem rooted_within (hn : Path.IsName dir) (h : Rooted [[]] es) : Rooted [[]] (within dir es) := by
  refine ⟨⟨[], by simp, dir, hn, rfl⟩, (h.cons_keys dir).mono ?_⟩
  simp

theorem Rooted.areNames (h : Rooted dirs es) (hd : ∀ dir ∈ dirs, ∀ n ∈ dir, Path.IsName n) :
    ∀ key ∈ es.keys, Path.AreNames key := by
  induction es generalizing dirs with
  | nil => simp [keys]
  | cons e es ih =>
    obtain ⟨key, x⟩ := e
    obtain ⟨⟨dir, hdir, n, hn, rfl⟩, h⟩ := h
    have hkey : ∀ m ∈ dir ++ [n], Path.IsName m := by
      simpa [or_imp, forall_and] using ⟨hd dir hdir, hn⟩
    intro key hk
    rcases List.mem_cons.1 hk with rfl | hk'
    · exact ⟨by simp, hkey⟩
    · cases x with
      | directory => exact ih h (List.forall_mem_cons.2 ⟨hkey, hd⟩) key hk'
      | page t => exact ih h hd key hk'

theorem keys_within (dir : Text) (es : Plan) :
    (within dir es).keys = [dir] :: es.keys.map (dir :: ·) := by
  simp [within, keys, Function.comp_def]

theorem keys_flatMap (l : List α) (f : α → Plan) :
    keys (l.flatMap f) = l.flatMap fun a => (f a).keys := List.map_flatMap

theorem head?_of_mem_keys_within {key : Location} (h : key ∈ (within dir es).keys) :
    key.head? = some dir := by
  rw [keys_within, List.mem_cons, List.mem_map] at h
  rcases h with rfl | ⟨key', -, rfl⟩ <;> rfl

theorem nil_not_mem_keys_within : [] ∉ (within dir es).keys := by
  intro h
  simpa using head?_of_mem_keys_within h

theorem nodup_keys_within (hd : es.keys.Nodup) (hne : [] ∉ es.keys) :
    (within dir es).keys.Nodup := by
  rw [keys_within, List.nodup_cons, List.Nodup, List.pairwise_map]
  refine ⟨by simpa using hne, hd.imp fun hne he => hne (List.cons.inj he).2⟩

/-- Plans within different directories have different locations. -/
theorem nodup_keys_flatMap_within {l : List α} {dir : α → Text} {f : α → Plan}
    (hd : (l.map dir).Nodup) (h : ∀ a ∈ l, (f a).keys.Nodup ∧ [] ∉ (f a).keys) :
    (keys (l.flatMap fun a => within (dir a) (f a))).Nodup := by
  rw [keys_flatMap, List.Nodup, List.pairwise_flatMap]
  refine ⟨fun a ha => nodup_keys_within (h a ha).1 (h a ha).2, ?_⟩
  rw [List.Nodup, List.pairwise_map] at hd
  refine hd.imp fun hne key hk key' hk' he => hne ?_
  have := head?_of_mem_keys_within hk
  rw [he, head?_of_mem_keys_within hk'] at this
  exact (Option.some.inj this).symm

/-- A page beside plans within directories. -/
theorem page_not_mem_keys_flatMap_within {l : List α} {dir : α → Text} {f : α → Plan} {n : Text}
    (hn : n ∉ l.map dir) : [n] ∉ keys (l.flatMap fun a => within (dir a) (f a)) := by
  rw [keys_flatMap, List.mem_flatMap]
  rintro ⟨a, ha, hk⟩
  have := head?_of_mem_keys_within hk
  exact hn (List.mem_map.2 ⟨a, ha, (Option.some.inj this).symm⟩)

end Nested

/-! ## The run of a plan -/

section Run

variable {d : Disk} {out : Path} {loc dir : Location} {dirs : List Location} {es : Plan} {n : Text}
  {x : Planned}

/-- One action of a plan. -/
theorem run_action (h : d.LeadsTo (pathOf out dir) (loc ++ dir)) (hn : Path.IsName n)
    (hf : d.node? (loc ++ (dir ++ [n])) = none) (x : Planned) :
    (x.action (pathOf out (dir ++ [n]))).run d =
      if Disk.maxName < byteLength n then (d, some .nameTooLong)
      else (d.put (loc ++ (dir ++ [n])) x.node, none) := by
  rw [← List.append_assoc] at hf
  rw [pathOf_concat, ← List.append_assoc]
  cases x with
  | directory => exact h.ensureDirectories_join hn hf
  | page t =>
    rw [Planned.action, Action.run, h.writeText_join hn hf]
    by_cases hl : Disk.maxName < byteLength n
    · simp only [if_pos hl]
    · simp only [if_neg hl]
      rfl

theorem runAll_append (d : Disk) (as as' : List Action) :
    Action.runAll d (as ++ as') =
      match Action.runAll d as with
      | (d, none) => Action.runAll d as'
      | failed => failed := by
  induction as generalizing d with
  | nil => rfl
  | cons a as ih =>
    rw [List.cons_append, Action.runAll, Action.runAll]
    rcases a.run d with ⟨d, _ | e⟩
    · exact ih d
    · rfl

theorem keeps_put (hf : Fresh d loc ((dir, x) :: es)) : d.Keeps (d.put (loc ++ dir) x.node) :=
  Disk.keeps_put (hf dir (List.mem_cons_self ..)) x.node

theorem Fresh.put (hf : Fresh d loc ((dir, x) :: es)) (hd : (keys ((dir, x) :: es)).Nodup) :
    Fresh (d.put (loc ++ dir) x.node) loc es := by
  intro key hk
  have hne : loc ++ key ≠ loc ++ dir := by
    intro he
    rw [List.append_cancel_left he] at hk
    exact (List.nodup_cons.1 hd).1 hk
  rw [Disk.node?_put_of_ne hne]
  exact hf key (List.mem_cons_of_mem _ hk)

theorem HasLongName.cons {e : Location × Planned} (h : HasLongName es) : HasLongName (e :: es) := by
  obtain ⟨key, hk, hn⟩ := h
  exact ⟨key, List.mem_cons_of_mem _ hk, hn⟩

theorem leadsTo_concat (h : d.LeadsTo (pathOf out dir) (loc ++ dir)) (hn : Path.IsName n)
    (hs : ¬Disk.maxName < byteLength n) (hf : d.node? (loc ++ (dir ++ [n])) = some .directory) :
    d.LeadsTo (pathOf out (dir ++ [n])) (loc ++ (dir ++ [n])) := by
  rw [← List.append_assoc] at hf
  rw [pathOf_concat, ← List.append_assoc]
  exact h.join hn hs hf

/-- A page that was written stays readable at its path, whatever else is made. -/
theorem readText_page {d' : Disk} {t : Text} (h : d.LeadsTo (pathOf out dir) (loc ++ dir))
    (hn : Path.IsName n) (hs : ¬Disk.maxName < byteLength n) (hk : d.Keeps d')
    (hp : d'.node? (loc ++ (dir ++ [n])) = some (.file (Disk.encode t))) :
    d'.readText (pathOf out (dir ++ [n])) = .ok t := by
  obtain ⟨links, hj⟩ := (h.mono hk).follow_join hn
  rw [← List.append_assoc] at hp
  rw [pathOf_concat, Disk.readText, hj, Disk.followFrom_file hn hs hp]
  exact Disk.decode_encode t

/-- The actions of a plan make its entries, and its pages can be read; or a name is too long. -/
theorem runAll_actions (hr : Rooted dirs es)
    (hl : ∀ dir ∈ dirs, d.LeadsTo (pathOf out dir) (loc ++ dir)) (hf : Fresh d loc es)
    (hd : es.keys.Nodup) :
    (es.HasLongName ∧ ∃ d', Action.runAll d (actions out es) = (d', some .nameTooLong)) ∨
      (Action.runAll d (actions out es) = (made d loc es, none) ∧
        ∀ key t, (key, .page t) ∈ es → (made d loc es).readText (pathOf out key) = .ok t) := by
  -- `dirs` are the directories that paths lead to so far; a directory of the plan joins them when made.
  induction es generalizing d dirs with
  | nil => exact .inr ⟨rfl, by simp⟩
  | cons e es ih =>
    obtain ⟨key, x⟩ := e
    obtain ⟨⟨dir, hdir, n, hn, rfl⟩, hr⟩ := hr
    have hrun := run_action (hl dir hdir) hn (hf _ (List.mem_cons_self ..)) x
    rw [actions_cons, Action.runAll, hrun]
    by_cases hs : Disk.maxName < byteLength n
    · have hlong : HasLongName ((dir ++ [n], x) :: es) :=
        ⟨dir ++ [n], List.mem_cons_self .., n, by simp, hs⟩
      exact .inl ⟨hlong, d, by simp only [if_pos hs]⟩
    simp only [if_neg hs]
    have hk : d.Keeps (d.put (loc ++ (dir ++ [n])) x.node) := keeps_put hf
    have hf' := hf.put hd
    have hd' := (List.nodup_cons.1 hd).2
    cases x with
    | directory =>
      have hl' : ∀ dir' ∈ (dir ++ [n]) :: dirs,
          (d.put (loc ++ (dir ++ [n])) .directory).LeadsTo (pathOf out dir') (loc ++ dir') := by
        intro dir' hm
        rcases List.mem_cons.1 hm with rfl | hm
        · exact leadsTo_concat ((hl dir hdir).mono hk) hn hs (Disk.node?_put_self (by simp) ..)
        · exact (hl dir' hm).mono hk
      refine (ih hr hl' hf' hd').imp (.imp_left .cons) fun h => ⟨h.1, fun key t hm => ?_⟩
      rcases List.mem_cons.1 hm with he | hm
      · simp at he
      · exact h.2 key t hm
    | page t =>
      refine (ih hr (fun dir' hm => (hl dir' hm).mono hk) hf' hd').imp (.imp_left .cons)
        fun h => ⟨h.1, ?_⟩
      intro key t' hm
      rcases List.mem_cons.1 hm with he | hm
      · obtain ⟨rfl, he⟩ := Prod.mk.inj he
        cases he
        refine readText_page ((hl dir hdir).mono hk) hn hs hf'.keeps_made ?_
        exact hf'.keeps_made.node (Disk.node?_put_self (by simp) ..)
      · exact h.2 key t' hm

end Run

end Plan

end Bookbinder
