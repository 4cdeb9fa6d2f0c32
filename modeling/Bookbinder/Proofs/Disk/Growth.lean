import Bookbinder.Proofs.Disk.Following

/-!
# Growing disks

Writing files and making directories removes nothing: a disk grows (`Disk.Grows`). Directories and links
stay, files stay files, and no link is made. So a path that leads to a file or a directory goes on
leading to the same location (`Grows.follow_file`, `Grows.pathExists`), and a path that was written to
leads to the file that was written (`writeText_ok`).

Below a directory without links, a path that goes on from the directory by names leads to the location of
these names, if it leads anywhere (`LeadsTo.eq_of_leadsTo_join`, `LeadsTo.eq_of_follow_file`).
-/

namespace Bookbinder

/-- Where a file is found or could be made. -/
def Found.entry? : Found → Option Location
  | file loc _ | missing loc => some loc
  | directory _ => none

namespace Disk

variable {d d' d'' : Disk} {links : Nat} {here loc : Location} {ps : List Text} {p : Path} {n : Text}

structure Grows (d d' : Disk) : Prop extends KeepsWays d d' where
  file : ∀ {l bytes}, d.node? l = some (.file bytes) → ∃ bytes', d'.node? l = some (.file bytes')
  link_of : ∀ {l target}, d'.node? l = some (.link target) → d.node? l = some (.link target)

theorem Grows.refl (d : Disk) : d.Grows d where
  workDir := rfl
  directory := id
  link := id
  file h := ⟨_, h⟩
  link_of := id

theorem Grows.trans (h : d.Grows d') (h' : d'.Grows d'') : d.Grows d'' where
  workDir := h'.workDir.trans h.workDir
  directory hd := h'.directory (h.directory hd)
  link hl := h'.link (h.link hl)
  file hf := by
    obtain ⟨bytes, hf⟩ := h.file hf
    exact h'.file hf
  link_of hl := h.link_of (h'.link_of hl)

theorem ne_nil_of_node? {node : Option Node} (h : d.node? loc = node)
    (hn : node ≠ some .directory) : loc ≠ [] := by
  rintro rfl
  exact hn h.symm

/-- A node that is no link may be put where nothing is, and a file over a file. -/
theorem grows_put {node : Node} (hl : ∀ target, node ≠ .link target)
    (h : d.node? loc = none ∨
      ∃ bytes bytes', d.node? loc = some (.file bytes) ∧ node = .file bytes') :
    d.Grows (d.put loc node) := by
  have hne : loc ≠ [] := by
    rcases h with h | ⟨bytes, -, h, -⟩ <;> exact ne_nil_of_node? h (by simp)
  have hself := node?_put_self hne d node
  refine ⟨⟨rfl, ?_, ?_⟩, ?_, ?_⟩
  · intro l hd
    rwa [node?_put_of_ne]
    rintro rfl
    rcases h with h | ⟨bytes, -, h, -⟩ <;> simp [hd] at h
  · intro l target hd
    rwa [node?_put_of_ne]
    rintro rfl
    rcases h with h | ⟨bytes, -, h, -⟩ <;> simp [hd] at h
  · intro l bytes hf
    by_cases he : l = loc
    · subst he
      rcases h with h | ⟨-, bytes', -, rfl⟩
      · simp [h] at hf
      · exact ⟨bytes', hself⟩
    · exact ⟨bytes, by rwa [node?_put_of_ne he]⟩
  · intro l target hd
    by_cases he : l = loc
    · subst he
      rw [hself, Option.some.injEq] at hd
      exact absurd hd (hl target)
    · rwa [node?_put_of_ne he] at hd

/-! ## Files and places for files -/


theorem node?_of_followFrom {f : Found} (h : d.followFrom links here ps = .ok f)
    (hf : f.entry? = some loc) :
    (f = .missing loc ∧ d.node? loc = none) ∨
      ∃ bytes, f = .file loc bytes ∧ d.node? loc = some (.file bytes) := by
  fun_induction followFrom d links here ps with
  | case1 =>
    cases h
    simp [Found.entry?] at hf
  | case2 _ _ _ _ _ ih => exact ih h
  | case3 _ _ _ _ ih => exact ih h
  | case5 _ _ _ _ _ _ _ hd =>
    cases h
    obtain rfl := Option.some.inj hf
    exact .inl ⟨rfl, hd⟩
  | case7 _ _ _ _ _ _ _ _ _ ih => exact ih h
  | case8 _ _ _ _ _ _ _ bytes hd =>
    cases h
    obtain rfl := Option.some.inj hf
    exact .inr ⟨bytes, rfl, hd⟩
  | case11 _ _ _ _ _ _ _ _ _ _ ih => exact ih h
  | _ => simp at h

/-- The way to a file or to a place for one is kept, and leads to the file that is there. -/
theorem followFrom_of_file {f : Found} (h : d.followFrom links here ps = .ok f)
    (hf : f.entry? = some loc) (hk : KeepsWays d d') {bytes : ByteArray}
    (hn : d'.node? loc = some (.file bytes)) :
    d'.followFrom links here ps = .ok (.file loc bytes) := by
  fun_induction followFrom d links here ps with
  | case1 =>
    cases h
    simp [Found.entry?] at hf
  | case2 _ _ _ _ hp ih => exact (followFrom_skip hp).trans (ih h)
  | case3 _ _ _ _ ih => exact followFrom_parent.trans (ih h)
  | case5 _ _ _ hs hp hl _ _ =>
    cases h
    obtain rfl := Option.some.inj hf
    rw [followFrom_entry ⟨hs, hp, hl⟩, hn]
    rfl
  | case7 _ _ _ _ hs hp hl _ hd ih =>
    exact (followFrom_enter ⟨hs, hp, hl⟩ (hk.directory hd)).trans (ih h)
  | case8 _ _ _ hs hp hl _ _ _ =>
    cases h
    obtain rfl := Option.some.inj hf
    rw [followFrom_entry ⟨hs, hp, hl⟩, hn]
    rfl
  | case11 _ _ _ hs hp hl _ _ hd _ ih =>
    exact (followFrom_link ⟨hs, hp, hl⟩ (hk.link hd)).trans (ih h)
  | _ => simp at h

theorem ne_nil_of_follow {f : Found} (h : d.follow p = .ok f) : p ≠ [] := by
  rintro rfl
  simp [follow] at h

theorem node?_of_follow_file {bytes : ByteArray} (h : d.follow p = .ok (.file loc bytes)) :
    d.node? loc = some (.file bytes) := by
  have hp := ne_nil_of_follow h
  rw [follow_eq hp] at h
  obtain ⟨hf, -⟩ | ⟨bytes', hf, hn⟩ := node?_of_followFrom h rfl
  · simp at hf
  · cases hf
    exact hn

theorem follow_of_file {f : Found} (h : d.follow p = .ok f) (hf : f.entry? = some loc)
    (hk : KeepsWays d d') {bytes : ByteArray} (hn : d'.node? loc = some (.file bytes)) :
    d'.follow p = .ok (.file loc bytes) := by
  have hp := ne_nil_of_follow h
  rw [follow_eq hp] at h
  rw [follow_eq hp, start_eq hk]
  exact followFrom_of_file h hf hk hn

theorem readText_of_follow_file {t : Text} (h : d.follow p = .ok (.file loc (encode t))) :
    d.readText p = .ok t := by
  rw [readText, h]
  exact decode_encode t

theorem readText_of_follow_missing (h : d.follow p = .ok (.missing loc)) :
    d.readText p = .error .notFound := by
  rw [readText, h]

/-- A path to a file goes on leading to it. -/
theorem Grows.follow_file (hg : d.Grows d') {bytes : ByteArray}
    (h : d.follow p = .ok (.file loc bytes)) : ∃ bytes', d'.follow p = .ok (.file loc bytes') := by
  obtain ⟨bytes', hn⟩ := hg.file (node?_of_follow_file h)
  exact ⟨bytes', follow_of_file h rfl hg.toKeepsWays hn⟩

theorem pathExists_iff (hp : p ≠ []) : d.pathExists p ↔
    (∃ loc bytes, d.follow p = .ok (.file loc bytes)) ∨ ∃ loc, d.LeadsTo p loc := by
  unfold pathExists
  constructor
  · intro h
    split at h
    · exact .inl ⟨_, _, ‹_›⟩
    · rename_i hd
      rw [follow_eq hp] at hd
      exact .inr ⟨_, hd⟩
    · simp at h
  · rintro (⟨loc, bytes, h⟩ | ⟨loc, h⟩)
    · rw [h]
    · rw [h.follow hp]

theorem pathExists_of_follow_file {bytes : ByteArray} (h : d.follow p = .ok (.file loc bytes)) :
    d.pathExists p :=
  (pathExists_iff (ne_nil_of_follow h)).2 (.inl ⟨loc, bytes, h⟩)

theorem pathExists_of_follow_directory (h : d.follow p = .ok (.directory loc)) : d.pathExists p := by
  rw [pathExists, h]

theorem pathExists_of_follow_missing (h : d.follow p = .ok (.missing loc)) :
    d.pathExists p = false := by
  rw [pathExists, h]

/-- What is there stays there. -/
theorem Grows.pathExists (hg : d.Grows d') (h : d.pathExists p) : d'.pathExists p := by
  have hp : p ≠ [] := by
    rintro rfl
    simp [Disk.pathExists, follow] at h
  rw [pathExists_iff hp] at h ⊢
  rcases h with ⟨loc, bytes, h⟩ | ⟨loc, h⟩
  · obtain ⟨bytes', h⟩ := hg.follow_file h
    exact .inl ⟨loc, bytes', h⟩
  · exact .inr ⟨loc, h.mono_ways hg.toKeepsWays⟩

/-! ## Changes -/

/-- A written path leads to the file with the text, and only this file changes. -/
theorem writeText_ok {t : Text} (h : d.writeText p t = .ok d') :
    ∃ loc, d.Grows d' ∧ d'.follow p = .ok (.file loc (encode t)) ∧
      ∀ l, l ≠ loc → d'.node? l = d.node? l := by
  obtain ⟨f, loc, hf, he, rfl⟩ : ∃ f loc, d.follow p = .ok f ∧ f.entry? = some loc ∧
      d' = d.put loc (.file (encode t)) := by
    unfold writeText at h
    split at h
    · cases h
      exact ⟨_, _, ‹_›, rfl, rfl⟩
    · cases h
      exact ⟨_, _, ‹_›, rfl, rfl⟩
    · simp at h
    · simp at h
  have hp := ne_nil_of_follow hf
  have hold : d.node? loc = none ∨ ∃ bytes bytes', d.node? loc = some (.file bytes) ∧
      Node.file (encode t) = .file bytes' := by
    rw [follow_eq hp] at hf
    obtain ⟨-, hn⟩ | ⟨bytes, -, hn⟩ := node?_of_followFrom hf he
    · exact .inl hn
    · exact .inr ⟨bytes, _, hn, rfl⟩
  have hne : loc ≠ [] := by
    rcases hold with h | ⟨bytes, -, h, -⟩ <;> exact ne_nil_of_node? h (by simp)
  have hg : d.Grows (d.put loc (.file (encode t))) := grows_put (by simp) hold
  refine ⟨loc, hg, follow_of_file hf he hg.toKeepsWays (node?_put_self hne ..), ?_⟩
  exact fun l hl => node?_put_of_ne hl ..

/-- A directory is made where nothing was. -/
theorem makeDirectory_ok (h : d.makeDirectory p = .ok d') :
    ∃ dir n, p.components.getLast? = some (.name n) ∧
      d.LeadsTo (Path.ofComponents p.parentComponents) dir ∧ ¬maxName < byteLength n ∧
      d.node? (dir ++ [n]) = none ∧ d' = d.put (dir ++ [n]) .directory := by
  cases hc : p.components.getLast? with
  | none =>
    rw [makeDirectory, hc] at h
    simp only at h
    split at h <;> simp at h
  | some c =>
    cases c with
    | name n =>
      obtain ⟨up, hup, he⟩ := makeDirectory_eq (d := d) hc
      rw [he] at h
      split at h
      · rename_i dir hdir
        split at h
        · simp at h
        · rename_i hs
          split at h
          · simp at h
          · rename_i hn
            cases h
            exact ⟨dir, n, rfl, (hup dir).1 hdir, hs, by simpa using hn, rfl⟩
      all_goals simp at h
    | _ =>
      rw [makeDirectory, hc] at h
      simp only at h
      split at h <;> simp at h

/-- The disk has grown by directories. -/
structure AddsDirectories (d d' : Disk) : Prop where
  grows : d.Grows d'
  node : ∀ l, d'.node? l = d.node? l ∨ (d.node? l = none ∧ d'.node? l = some .directory)

theorem AddsDirectories.refl (d : Disk) : d.AddsDirectories d := ⟨.refl d, fun _ => .inl rfl⟩

theorem AddsDirectories.trans (h : d.AddsDirectories d') (h' : d'.AddsDirectories d'') :
    d.AddsDirectories d'' := by
  refine ⟨h.grows.trans h'.grows, fun l => ?_⟩
  rcases h'.node l with he | ⟨hn, hd⟩
  · rw [he]
    exact h.node l
  · rcases h.node l with he | ⟨-, hd'⟩
    · exact .inr ⟨he ▸ hn, hd⟩
    · simp [hn] at hd'

theorem addsDirectories_put (h : d.node? loc = none) : d.AddsDirectories (d.put loc .directory) := by
  refine ⟨grows_put (by simp) (.inl h), fun l => ?_⟩
  by_cases he : l = loc
  · subst he
    exact .inr ⟨h, node?_put_self (ne_nil_of_node? h (by simp)) ..⟩
  · exact .inl (node?_put_of_ne he ..)

theorem makeDirectory_adds (h : d.makeDirectory p = .ok d') : d.AddsDirectories d' := by
  obtain ⟨dir, n, -, -, -, hn, rfl⟩ := makeDirectory_ok h
  exact addsDirectories_put hn

theorem ensureDirectory_adds (h : d.ensureDirectory p = .ok d') : d.AddsDirectories d' := by
  unfold ensureDirectory at h
  split at h
  · cases h
    exact makeDirectory_adds ‹_›
  · split at h
    · cases h
      exact .refl d
    · simp at h

theorem ensureDirectories_adds (d : Disk) (comps : List Path.Component) :
    d.AddsDirectories (d.ensureDirectories comps).1 := by
  fun_induction ensureDirectories d comps with
  | case1 => exact .refl _
  | case2 _ _ _ _ h => exact makeDirectory_adds h
  | case3 _ _ _ _ _ _ h ih =>
    rw [h] at ih
    exact ih
  | case4 _ _ _ _ _ h _ h' ih =>
    rw [h] at ih
    exact ih.trans (ensureDirectory_adds h')
  | case5 _ _ _ _ _ h _ _ ih =>
    rw [h] at ih
    exact ih
  | case6 => exact .refl _
  | case7 => exact .refl _

/-! ## Directories without links -/

/-- No link lies below a location. -/
def NoLinkBelow (d : Disk) (loc : Location) : Prop :=
  ∀ rel, rel ≠ [] → ∀ target, d.node? (loc ++ rel) ≠ some (.link target)

theorem NoLinkBelow.below (h : d.NoLinkBelow loc) (rel : Location) : d.NoLinkBelow (loc ++ rel) := by
  intro rel' hr target
  rw [List.append_assoc]
  exact h _ (by simp [hr]) target

theorem Grows.noLinkBelow (hg : d.Grows d') (h : d.NoLinkBelow loc) : d'.NoLinkBelow loc :=
  fun rel hr target hl => h rel hr target (hg.link_of hl)

/-- If more is to be looked up behind pieces, they lead to a directory. -/
theorem Way.of_followFrom_append {f : Found} {piece : Text}
    (h : d.followFrom links here (ps ++ [piece]) = .ok f) : ∃ loc, Way d links here ps loc := by
  generalize hq : ps ++ [piece] = qs at h
  fun_induction followFrom d links here qs generalizing ps with
  | case1 => simp at hq
  | case2 links here q qs hp ih =>
    cases ps with
    | nil => exact ⟨here, .done⟩
    | cons p ps =>
      obtain ⟨rfl, hq'⟩ := List.cons.inj hq
      obtain ⟨loc, w⟩ := ih hq' h
      exact ⟨loc, .skip hp w⟩
  | case3 links here qs _ ih =>
    cases ps with
    | nil => exact ⟨here, .done⟩
    | cons p ps =>
      obtain ⟨rfl, hq'⟩ := List.cons.inj hq
      obtain ⟨loc, w⟩ := ih hq' h
      exact ⟨loc, .parent w⟩
  | case5 links here =>
    cases ps with
    | nil => exact ⟨here, .done⟩
    | cons p ps => simp at hq
  | case7 links here _ _ hs hp hl _ hd =>
    rename_i ih
    cases ps with
    | nil => exact ⟨here, .done⟩
    | cons p ps =>
      obtain ⟨rfl, hq'⟩ := List.cons.inj hq
      obtain ⟨loc, w⟩ := ih hq' h
      exact ⟨loc, .enter ⟨hs, hp, hl⟩ hd w⟩
  | case8 links here =>
    cases ps with
    | nil => exact ⟨here, .done⟩
    | cons p ps => simp at hq
  | case11 here _ _ hs hp hl _ _ hd _ =>
    rename_i ih
    cases ps with
    | nil => exact ⟨here, .done⟩
    | cons p ps =>
      obtain ⟨rfl, rfl⟩ := List.cons.inj hq
      obtain ⟨loc, w⟩ := ih (List.append_assoc ..) h
      exact ⟨loc, .link ⟨hs, hp, hl⟩ hd w⟩
  | _ => simp at h

theorem exists_leadsTo_of_follow_join {f : Found} (hn : Path.IsName n)
    (h : d.follow (p.join n) = .ok f) : ∃ loc, d.LeadsTo p loc := by
  obtain ⟨ps, hs, hf⟩ := Path.splitWhen_join p hn
  rw [follow_eq (Path.join_ne_nil p hn), start_join hn, hs] at h
  obtain ⟨loc, w⟩ := Way.of_followFrom_append h
  exact ⟨loc, leadsTo_of_way (w.of_steps (by rw [hf, Path.steps, List.filter_filter]; simp))⟩

theorem LeadsTo.unique {loc' : Location} (h : d.LeadsTo p loc) (h' : d.LeadsTo p loc') :
    loc = loc' := by
  have he := h.symm.trans h'
  simpa using he

/-- A name that is no link is found where it stands. -/
theorem LeadsTo.follow_join_cases (h : d.LeadsTo p loc) (hn : Path.IsName n)
    (hl : ∀ target, d.node? (loc ++ [n]) ≠ some (.link target)) {f : Found}
    (hf : d.follow (p.join n) = .ok f) :
    (f = .missing (loc ++ [n]) ∧ d.node? (loc ++ [n]) = none) ∨
      (f = .directory (loc ++ [n]) ∧ d.node? (loc ++ [n]) = some .directory) ∨
      ∃ bytes, f = .file (loc ++ [n]) bytes ∧ d.node? (loc ++ [n]) = some (.file bytes) := by
  obtain ⟨links, hj⟩ := h.follow_join hn
  rw [hj] at hf
  by_cases hs : maxName < byteLength n
  · simp [followFrom_long hn hs] at hf
  · have he : IsEntry n := ⟨Path.isStep_iff.1 hn.isStep, hn.ne_parent, hs⟩
    cases hd : d.node? (loc ++ [n]) with
    | none => simp_all [followFrom_missing hn hs hd]
    | some node =>
      cases node with
      | file bytes => simp_all [followFrom_file hn hs hd]
      | directory => simp_all [followFrom_enter he hd, followFrom_nil]
      | link target => exact absurd hd (hl target)

theorem LeadsTo.eq_of_follow_file (h : d.LeadsTo p loc) (hn : Path.IsName n)
    (hl : d.NoLinkBelow loc) {l : Location} {bytes : ByteArray}
    (hf : d.follow (p.join n) = .ok (.file l bytes)) : l = loc ++ [n] := by
  obtain ⟨he, -⟩ | ⟨he, -⟩ | ⟨bytes, he, -⟩ := h.follow_join_cases hn (hl [n] (by simp)) hf <;>
    simp_all

theorem LeadsTo.eq_of_leadsTo_join (h : d.LeadsTo p loc) (hn : Path.IsName n)
    (hl : d.NoLinkBelow loc) {l : Location} (hj : d.LeadsTo (p.join n) l) : l = loc ++ [n] := by
  have hf := hj.follow (Path.join_ne_nil p hn)
  obtain ⟨he, -⟩ | ⟨he, -⟩ | ⟨bytes, he, -⟩ := h.follow_join_cases hn (hl [n] (by simp)) hf <;>
    simp_all

end Disk

end Bookbinder
