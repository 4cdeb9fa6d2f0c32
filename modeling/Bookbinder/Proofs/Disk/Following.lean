import Bookbinder.Disk.Basic
import Bookbinder.Proofs.Path

/-!
# Following paths to directories

Where a path leads when its way ends at a directory. `Way` lists the steps of such a way: skipping a
piece, going up, entering a directory, following a link. A way can be continued
(`Way.followFrom_append`), is not turned by new nodes (`Way.mono`), and depends on the steps of a path
only (`Way.of_steps`). `LeadsTo` says that a path leads to the directory at a location. For a name
joined to such a path, `LeadsTo.follow_join`, `LeadsTo.writeText_join` and
`LeadsTo.ensureDirectories_join` say what is found there and what writing a file or making a directory
does.
-/

namespace Bookbinder

namespace Disk

/-! ## Nodes -/

@[simp]
theorem workDir_put (d : Disk) (loc : Location) (n : Node) : (d.put loc n).workDir = d.workDir := rfl

theorem lookup_filter_of_ne {nodes : List (Location × Node)} {l loc : Location} (h : l ≠ loc) :
    (nodes.filter (·.1 != loc)).lookup l = nodes.lookup l := by
  induction nodes with
  | nil => rfl
  | cons e nodes ih =>
    by_cases he : e.1 = loc
    · have hl : (l == e.1) = false := by simpa [he] using h
      rw [List.filter_cons_of_neg (by simp [he]), List.lookup_cons, hl, ih]
    · rw [List.filter_cons_of_pos (by simp [he]), List.lookup_cons, List.lookup_cons, ih]

theorem node?_put_self {loc : Location} (h : loc ≠ []) (d : Disk) (n : Node) :
    (d.put loc n).node? loc = some n := by
  rw [node?, if_neg h, put, List.lookup_cons_self]

theorem node?_put_of_ne {l loc : Location} (h : l ≠ loc) (d : Disk) (n : Node) :
    (d.put loc n).node? l = d.node? l := by
  have hb : (l == loc) = false := by simpa using h
  rw [node?, node?, put, List.lookup_cons, hb, lookup_filter_of_ne h]

/-- Every node of `d` is a node of `d'`. -/
structure Keeps (d d' : Disk) : Prop where
  workDir : d'.workDir = d.workDir
  node : ∀ {l n}, d.node? l = some n → d'.node? l = some n

theorem keeps_put {d : Disk} {loc : Location} (h : d.node? loc = none) (n : Node) :
    Keeps d (d.put loc n) := by
  refine ⟨rfl, fun {l m} hl => ?_⟩
  rw [node?_put_of_ne _ d n]
  · exact hl
  · rintro rfl
    simp [h] at hl

/-- Every directory and every link of `d` is one of `d'`. -/
structure KeepsWays (d d' : Disk) : Prop where
  workDir : d'.workDir = d.workDir
  directory : ∀ {l}, d.node? l = some .directory → d'.node? l = some .directory
  link : ∀ {l target}, d.node? l = some (.link target) → d'.node? l = some (.link target)

theorem Keeps.keepsWays {d d' : Disk} (h : Keeps d d') : KeepsWays d d' := ⟨h.workDir, h.node, h.node⟩

theorem decode_encode (t : Text) : decode (encode t) = .ok t := by
  have h : String.fromUTF8? (encode t) = some (String.ofList t) :=
    dif_pos (String.ofList t).isValidUTF8
  rw [decode, h]
  exact congrArg Except.ok String.toList_ofList

/-! ## Ways to directories -/

/-- The piece is looked up in the directory where the way has come to. -/
structure IsEntry (piece : Text) : Prop where
  step : ¬(piece = [] ∨ piece = ['.'])
  ne_parent : piece ≠ ['.', '.']
  short : ¬maxName < byteLength piece

/-- The pieces lead from the directory `here` to the directory `loc` through at most `links` links. -/
inductive Way (d : Disk) : Nat → Location → List Text → Location → Prop
  | done {links : Nat} {here : Location} : Way d links here [] here
  | skip {links : Nat} {here loc : Location} {piece : Text} {ps : List Text}
      (hp : piece = [] ∨ piece = ['.']) (w : Way d links here ps loc) :
      Way d links here (piece :: ps) loc
  | parent {links : Nat} {here loc : Location} {ps : List Text}
      (w : Way d links here.dropLast ps loc) : Way d links here (['.', '.'] :: ps) loc
  | enter {links : Nat} {here loc : Location} {piece : Text} {ps : List Text} (hp : IsEntry piece)
      (hd : d.node? (here ++ [piece]) = some .directory) (w : Way d links (here ++ [piece]) ps loc) :
      Way d links here (piece :: ps) loc
  | link {links : Nat} {here loc : Location} {piece : Text} {ps : List Text} {target : Path}
      (hp : IsEntry piece) (hd : d.node? (here ++ [piece]) = some (.link target))
      (w : Way d links (if target.isAbsolute then [] else here)
        (splitWhen (· == '/') target ++ ps) loc) :
      Way d (links + 1) here (piece :: ps) loc

section Ways

variable {d d' : Disk} {links : Nat} {here loc : Location} {piece : Text} {ps qs : List Text}

theorem followFrom_nil : d.followFrom links here [] = .ok (.directory here) := by
  rw [followFrom]

theorem followFrom_skip (h : piece = [] ∨ piece = ['.']) :
    d.followFrom links here (piece :: ps) = d.followFrom links here ps := by
  rw [followFrom, if_pos h]

theorem followFrom_parent :
    d.followFrom links here (['.', '.'] :: ps) = d.followFrom links here.dropLast ps := by
  rw [followFrom, if_neg (by simp), if_pos rfl]

/-- An entry is looked up, and what is found decides how the way goes on. -/
theorem followFrom_entry (h : IsEntry piece) (links : Nat) (here : Location) (ps : List Text) :
    d.followFrom links here (piece :: ps) =
      match d.node? (here ++ [piece]) with
      | none => if ps = [] then .ok (.missing (here ++ [piece])) else .error .notFound
      | some .directory => d.followFrom links (here ++ [piece]) ps
      | some (.file bytes) =>
        if ps = [] then .ok (.file (here ++ [piece]) bytes) else .error .notDirectory
      | some (.link target) =>
        match links with
        | 0 => .error .tooManyLinks
        | n + 1 =>
          d.followFrom n (if target.isAbsolute then [] else here)
            (splitWhen (· == '/') target ++ ps) := by
  rw [followFrom]
  exact (if_neg h.step).trans ((if_neg h.ne_parent).trans (if_neg h.short))

theorem followFrom_enter (h : IsEntry piece) (hd : d.node? (here ++ [piece]) = some .directory) :
    d.followFrom links here (piece :: ps) = d.followFrom links (here ++ [piece]) ps := by
  rw [followFrom_entry h, hd]

theorem followFrom_link {target : Path} (h : IsEntry piece)
    (hd : d.node? (here ++ [piece]) = some (.link target)) :
    d.followFrom (links + 1) here (piece :: ps) =
      d.followFrom links (if target.isAbsolute then [] else here)
        (splitWhen (· == '/') target ++ ps) := by
  rw [followFrom_entry h, hd]

theorem Way.of_followFrom (h : d.followFrom links here ps = .ok (.directory loc)) :
    Way d links here ps loc := by
  fun_induction followFrom d links here ps with
  | case1 =>
    cases h
    exact .done
  | case2 _ _ _ _ hp ih => exact .skip hp (ih h)
  | case3 _ _ _ _ ih => exact .parent (ih h)
  | case7 _ _ _ _ hs hn hl _ hd ih => exact .enter ⟨hs, hn, hl⟩ hd (ih h)
  | case11 _ _ _ hs hn hl _ _ hd _ ih => exact .link ⟨hs, hn, hl⟩ hd (ih h)
  | _ => simp at h

/-- A way can be continued. -/
theorem Way.followFrom_append (h : Way d links here ps loc) :
    ∃ links', ∀ qs, d.followFrom links here (ps ++ qs) = d.followFrom links' loc qs := by
  induction h with
  | done => exact ⟨_, fun _ => rfl⟩
  | skip hp _ ih =>
    obtain ⟨links', ih⟩ := ih
    exact ⟨links', fun qs => by rw [List.cons_append, followFrom_skip hp, ih]⟩
  | parent _ ih =>
    obtain ⟨links', ih⟩ := ih
    exact ⟨links', fun qs => by rw [List.cons_append, followFrom_parent, ih]⟩
  | enter hp hd _ ih =>
    obtain ⟨links', ih⟩ := ih
    exact ⟨links', fun qs => by rw [List.cons_append, followFrom_enter hp hd, ih]⟩
  | link hp hd _ ih =>
    obtain ⟨links', ih⟩ := ih
    exact ⟨links', fun qs => by
      rw [List.cons_append, followFrom_link hp hd, ← List.append_assoc, ih]⟩

theorem Way.followFrom_eq (h : Way d links here ps loc) :
    d.followFrom links here ps = .ok (.directory loc) := by
  obtain ⟨links', h⟩ := h.followFrom_append
  simpa [followFrom_nil] using h []

/-- New nodes do not turn a way. -/
theorem Way.mono (h : Way d links here ps loc) (hk : KeepsWays d d') : Way d' links here ps loc := by
  induction h with
  | done => exact .done
  | skip hp _ ih => exact .skip hp ih
  | parent _ ih => exact .parent ih
  | enter hp hd _ ih => exact .enter hp (hk.directory hd) ih
  | link hp hd _ ih => exact .link hp (hk.link hd) ih

theorem Way.skipAll (hp : ∀ piece ∈ ps, ¬Path.isStep piece) (h : Way d links here qs loc) :
    Way d links here (ps ++ qs) loc := by
  induction ps with
  | nil => exact h
  | cons piece ps ih =>
    have hs := hp piece (by simp)
    rw [Path.isStep_iff, Decidable.not_not] at hs
    exact .skip hs (ih fun q hq => hp q (List.mem_cons_of_mem _ hq))

/-- Only the steps of a way count. -/
theorem Way.of_steps (h : Way d links here ps loc)
    (hs : ps.filter Path.isStep = qs.filter Path.isStep) : Way d links here qs loc := by
  induction h generalizing qs with
  | done =>
    rw [← List.append_nil qs]
    exact Way.skipAll (List.filter_eq_nil_iff.1 hs.symm) .done
  | skip hp _ ih =>
    rw [List.filter_cons_of_neg (by simp [Path.isStep, hp])] at hs
    exact ih hs
  | parent _ ih =>
    rw [List.filter_cons_of_pos (by decide)] at hs
    obtain ⟨qs₁, qs₂, rfl, hq, -, hs⟩ := List.filter_eq_cons_iff.1 hs.symm
    exact Way.skipAll hq (.parent (ih hs.symm))
  | enter hp hd _ ih =>
    rw [List.filter_cons_of_pos (Path.isStep_iff.2 hp.step)] at hs
    obtain ⟨qs₁, qs₂, rfl, hq, -, hs⟩ := List.filter_eq_cons_iff.1 hs.symm
    exact Way.skipAll hq (.enter hp hd (ih hs.symm))
  | link hp hd _ ih =>
    rw [List.filter_cons_of_pos (Path.isStep_iff.2 hp.step)] at hs
    obtain ⟨qs₁, qs₂, rfl, hq, -, hs⟩ := List.filter_eq_cons_iff.1 hs.symm
    exact Way.skipAll hq (.link hp hd (ih (by rw [List.filter_append, List.filter_append, hs])))

end Ways

/-! ## Paths to directories -/

/-- The directory where following a path starts. -/
def start (d : Disk) (p : Path) : Location := if p.isAbsolute then [] else d.workDir

/-- The path leads to the directory at `loc`; the empty path stands for the working directory. -/
def LeadsTo (d : Disk) (p : Path) (loc : Location) : Prop :=
  d.followFrom maxLinks (d.start p) (splitWhen (· == '/') p) = .ok (.directory loc)

section Joined

variable {d d' : Disk} {p q : Path} {loc : Location} {n : Text}

theorem follow_eq (hp : p ≠ []) :
    d.follow p = d.followFrom maxLinks (d.start p) (splitWhen (· == '/') p) := if_neg hp

theorem LeadsTo.follow (h : LeadsTo d p loc) (hp : p ≠ []) : d.follow p = .ok (.directory loc) :=
  (follow_eq hp).trans h

theorem isDirectory_iff (hp : p ≠ []) : d.isDirectory p ↔ ∃ loc, LeadsTo d p loc := by
  rw [isDirectory, follow_eq hp]
  constructor
  · intro h
    split at h
    · exact ⟨_, ‹_›⟩
    · simp at h
  · rintro ⟨loc, h⟩
    rw [h]

theorem LeadsTo.way (h : LeadsTo d p loc) : Way d maxLinks (d.start p) p.steps loc :=
  (Way.of_followFrom h).of_steps (by rw [Path.steps, List.filter_filter]; simp)

theorem leadsTo_of_way (h : Way d maxLinks (d.start p) p.steps loc) : LeadsTo d p loc :=
  (h.of_steps (by rw [Path.steps, List.filter_filter]; simp)).followFrom_eq

theorem start_eq (hk : KeepsWays d d') (p : Path) : d'.start p = d.start p := by
  rw [start, start, hk.workDir]

theorem LeadsTo.mono_ways (h : LeadsTo d p loc) (hk : KeepsWays d d') : LeadsTo d' p loc :=
  leadsTo_of_way (start_eq hk p ▸ h.way.mono hk)

theorem LeadsTo.mono (h : LeadsTo d p loc) (hk : Keeps d d') : LeadsTo d' p loc :=
  h.mono_ways hk.keepsWays

theorem LeadsTo.of_steps (h : LeadsTo d p loc) (ha : q.isAbsolute = p.isAbsolute)
    (hs : q.steps = p.steps) : LeadsTo d q loc := by
  have hq : d.start q = d.start p := by rw [start, start, ha]
  exact leadsTo_of_way (by rw [hq, hs]; exact h.way)

theorem start_join (hn : Path.IsName n) : d.start (p.join n) = d.start p := by
  rw [start, start, Path.isAbsolute_join p hn]

/-- A joined name is looked up in the directory its path leads to. -/
theorem LeadsTo.follow_join (h : LeadsTo d p loc) (hn : Path.IsName n) :
    ∃ links, d.follow (p.join n) = d.followFrom links loc [n] := by
  obtain ⟨ps, hs, hf⟩ := Path.splitWhen_join p hn
  have hw : Way d maxLinks (d.start p) ps loc :=
    h.way.of_steps (by rw [hf, Path.steps, List.filter_filter]; simp)
  obtain ⟨links, hl⟩ := hw.followFrom_append
  exact ⟨links, by rw [follow_eq (Path.join_ne_nil p hn), start_join hn, hs, hl]⟩

theorem followFrom_long {links : Nat} (hn : Path.IsName n) (hl : maxName < byteLength n) :
    d.followFrom links loc [n] = .error .nameTooLong := by
  rw [followFrom, if_neg (Path.isStep_iff.1 hn.isStep), if_neg hn.ne_parent, if_pos hl]

theorem followFrom_missing {links : Nat} (hn : Path.IsName n) (hl : ¬maxName < byteLength n)
    (hf : d.node? (loc ++ [n]) = none) :
    d.followFrom links loc [n] = .ok (.missing (loc ++ [n])) := by
  rw [followFrom, if_neg (Path.isStep_iff.1 hn.isStep), if_neg hn.ne_parent, if_neg hl]
  simp only [hf, if_pos]

theorem followFrom_file {links : Nat} {bytes : ByteArray} (hn : Path.IsName n)
    (hl : ¬maxName < byteLength n) (hf : d.node? (loc ++ [n]) = some (.file bytes)) :
    d.followFrom links loc [n] = .ok (.file (loc ++ [n]) bytes) := by
  rw [followFrom, if_neg (Path.isStep_iff.1 hn.isStep), if_neg hn.ne_parent, if_neg hl]
  simp only [hf, if_pos]

theorem LeadsTo.join (h : LeadsTo d p loc) (hn : Path.IsName n) (hl : ¬maxName < byteLength n)
    (hf : d.node? (loc ++ [n]) = some .directory) : LeadsTo d (p.join n) (loc ++ [n]) := by
  obtain ⟨links, hj⟩ := h.follow_join hn
  rw [follow_eq (Path.join_ne_nil p hn)] at hj
  have he : IsEntry n := ⟨Path.isStep_iff.1 hn.isStep, hn.ne_parent, hl⟩
  exact hj.trans ((followFrom_enter he hf).trans followFrom_nil)

/-- A path to a name that is too long for an entry is no way. -/
theorem LeadsTo.not_leadsTo_of_long (h : LeadsTo d p loc) (hn : Path.IsName n)
    (hl : maxName < byteLength n) (loc' : Location) : ¬LeadsTo d (p.join n) loc' := by
  intro hj
  obtain ⟨links, he⟩ := h.follow_join hn
  rw [hj.follow (Path.join_ne_nil p hn), followFrom_long hn hl] at he
  simp at he

/-! ## Writing and making directories -/

/-- Writing a new file puts it into the directory its path leads to. -/
theorem LeadsTo.writeText_join (h : LeadsTo d p loc) (hn : Path.IsName n)
    (hf : d.node? (loc ++ [n]) = none) (t : Text) :
    d.writeText (p.join n) t =
      if maxName < byteLength n then .error .nameTooLong
      else .ok (d.put (loc ++ [n]) (.file (encode t))) := by
  obtain ⟨links, hj⟩ := h.follow_join hn
  rw [writeText, hj]
  by_cases hl : maxName < byteLength n
  · rw [followFrom_long hn hl, if_pos hl]
  · rw [followFrom_missing hn hl hf, if_neg hl]

theorem normal_join_ne_nil (p : Path) (hn : Path.IsName n) : (p.join n).normal ≠ [] := by
  intro h
  have hs := Path.steps_normal (p.join n)
  rw [h, Path.steps_join p hn] at hs
  simp [Path.steps, splitWhen, Path.isStep] at hs

/-- A directory is made in the directory that the path above it leads to; a dot stands for the empty
path. -/
theorem makeDirectory_eq (hc : p.components.getLast? = some (.name n)) :
    ∃ up, (∀ loc, d.follow up = .ok (.directory loc) ↔
        d.LeadsTo (Path.ofComponents p.parentComponents) loc) ∧
      d.makeDirectory p =
        match d.follow up with
        | .ok (.directory dir) =>
          if maxName < byteLength n then .error .nameTooLong
          else if (d.node? (dir ++ [n])).isSome then .error .alreadyExists
          else .ok (d.put (dir ++ [n]) .directory)
        | .ok (.file ..) => .error .notDirectory
        | .ok (.missing _) => .error .notFound
        | .error e => .error e := by
  rw [makeDirectory, hc]
  cases hq : Path.ofComponents p.parentComponents with
  | nil =>
    refine ⟨['.'], fun loc => ?_, rfl⟩
    rw [follow_eq (by simp)]
    exact ⟨fun h => LeadsTo.of_steps (p := ['.']) h rfl rfl, fun h => LeadsTo.of_steps h rfl rfl⟩
  | cons x q => exact ⟨x :: q, fun loc => by rw [follow_eq (by simp)]; rfl, rfl⟩

theorem makeDirectory_of_leadsTo (hc : p.components.getLast? = some (.name n))
    (h : d.LeadsTo (Path.ofComponents p.parentComponents) loc) :
    d.makeDirectory p =
      if maxName < byteLength n then .error .nameTooLong
      else if (d.node? (loc ++ [n])).isSome then .error .alreadyExists
      else .ok (d.put (loc ++ [n]) .directory) := by
  obtain ⟨up, hup, he⟩ := makeDirectory_eq (d := d) hc
  rw [he, (hup loc).2 h]

theorem LeadsTo.makeDirectory_join (h : LeadsTo d p loc) (hn : Path.IsName n) :
    d.makeDirectory (p.join n).normal =
      if maxName < byteLength n then .error .nameTooLong
      else if (d.node? (loc ++ [n])).isSome then .error .alreadyExists
      else .ok (d.put (loc ++ [n]) .directory) := by
  have hc : (p.join n).normal.components = p.components ++ [.name n] := by
    rw [Path.components_normal, Path.components_join p hn]
  have hpar : (p.join n).normal.parentComponents = p.components := by
    rw [Path.parentComponents, hc, List.getLast?_concat, List.dropLast_concat]
  have hnorm : LeadsTo d p.normal loc := h.of_steps p.isAbsolute_normal p.steps_normal
  rw [Path.normal, ← hpar] at hnorm
  exact makeDirectory_of_leadsTo (by rw [hc, List.getLast?_concat]) hnorm

/-- Making a new directory puts it into the directory its path leads to. -/
theorem LeadsTo.ensureDirectories_join (h : LeadsTo d p loc) (hn : Path.IsName n)
    (hf : d.node? (loc ++ [n]) = none) :
    d.ensureDirectories (p.join n).components =
      if maxName < byteLength n then (d, some .nameTooLong)
      else (d.put (loc ++ [n]) .directory, none) := by
  have hne : (p.join n).components ≠ [] := by simp [Path.components_join p hn]
  have hm := h.makeDirectory_join hn
  simp only [hf, Option.isSome_none, Bool.false_eq_true, if_false] at hm
  rw [Path.normal] at hm
  rw [ensureDirectories, if_neg hne, hm]
  by_cases hl : maxName < byteLength n
  · have hd : d.isDirectory (p.join n).normal = false := by
      rw [← Bool.not_eq_true, isDirectory_iff (normal_join_ne_nil p hn)]
      rintro ⟨loc', hj⟩
      refine h.not_leadsTo_of_long hn hl loc' (hj.of_steps ?_ ?_)
      · exact (Path.isAbsolute_normal _).symm
      · exact (Path.steps_normal _).symm
    rw [Path.normal] at hd
    simp only [if_pos hl, hd, Bool.false_eq_true, if_false]
  · simp only [if_neg hl]

end Joined

end Disk

end Bookbinder
