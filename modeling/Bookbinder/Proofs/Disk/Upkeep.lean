import Bookbinder.Proofs.Disk.Directories

/-!
# Trees stay trees

Writing a file and making directories keep a tree with a working directory (`Disk.IsSound`): what is
put on the disk lies in a directory under a proper name, because that is where a path leads
(`IsSound.isPlace_of_follow`), and no directory is replaced by a file (`IsSound.put`).

A path that leads to a directory is left alone by making it (`LeadsTo.ensureDirectories_there`), and a
file that holds a text already by writing it (`agree_writeText`).
-/

namespace Bookbinder

namespace Disk

variable {d d' : Disk} {links : Nat} {here loc : Location} {ps : List Text} {p : Path} {n : Text}

/-- A tree with a working directory that is there. -/
structure IsSound (d : Disk) : Prop extends IsTree d where
  workDir : d.node? d.workDir = some .directory

/-- A node may lie at the location: in a directory, under a proper name. -/
def IsPlace (d : Disk) (loc : Location) : Prop :=
  ∃ dir n, loc = dir ++ [n] ∧ Path.IsName n ∧ d.node? dir = some .directory

/-- What was found is a directory, or at a place for a node. -/
def IsPlaced (d : Disk) : Found → Prop
  | .directory loc => d.node? loc = some .directory
  | .file loc _ | .missing loc => d.IsPlace loc

/-! ## Where paths lead -/

theorem slash_not_mem_of_mem_pieces {piece : Text} (h : piece ∈ splitWhen (· == '/') p) :
    '/' ∉ piece := by
  intro hslash
  exact absurd (of_mem_splitWhen h _ hslash) (by decide)

theorem IsTree.directory_dropLast (ht : d.IsTree) (h : d.node? here = some .directory) :
    d.node? here.dropLast = some .directory := by
  rcases List.eq_nil_or_concat here with rfl | ⟨dir, n, rfl⟩
  · rfl
  · rw [List.concat_eq_append] at h ⊢
    rw [List.dropLast_concat]
    exact ht.directory_above (n := n) (by rw [h]; rfl)

theorem IsTree.isPlaced_of_followFrom (ht : d.IsTree) (hh : d.node? here = some .directory)
    (hps : ∀ piece ∈ ps, '/' ∉ piece) {f : Found} (h : d.followFrom links here ps = .ok f) :
    d.IsPlaced f := by
  have hname {piece : Text} (hs : ¬(piece = [] ∨ piece = ['.'])) (hn : piece ≠ ['.', '.'])
      (hp : '/' ∉ piece) : Path.IsName piece :=
    ⟨fun h => hs (.inl h), fun h => hs (.inr h), hn, hp⟩
  fun_induction followFrom d links here ps with
  | case1 =>
    cases h
    exact hh
  | case2 _ _ _ _ _ ih => exact ih hh (fun q hq => hps q (List.mem_cons_of_mem _ hq)) h
  | case3 _ _ _ _ ih =>
    exact ih (ht.directory_dropLast hh) (fun q hq => hps q (List.mem_cons_of_mem _ hq)) h
  | case5 _ _ _ hs hn =>
    cases h
    exact ⟨_, _, rfl, hname hs hn (hps _ (List.mem_cons_self ..)), hh⟩
  | case7 _ _ _ _ _ _ _ _ hd ih => exact ih hd (fun q hq => hps q (List.mem_cons_of_mem _ hq)) h
  | case8 _ _ _ hs hn =>
    cases h
    exact ⟨_, _, rfl, hname hs hn (hps _ (List.mem_cons_self ..)), hh⟩
  | case11 here _ _ _ _ _ _ target _ _ ih =>
    refine ih ?_ (fun q hq => ?_) h
    · split
      · rfl
      · exact hh
    · rcases List.mem_append.1 hq with hq | hq
      · exact slash_not_mem_of_mem_pieces hq
      · exact hps q (List.mem_cons_of_mem _ hq)
  | _ => simp at h

namespace IsSound

theorem directory_start (h : d.IsSound) (p : Path) : d.node? (d.start p) = some .directory := by
  unfold start
  split
  · rfl
  · exact h.workDir

theorem directory_of_leadsTo (h : d.IsSound) (hl : d.LeadsTo p loc) :
    d.node? loc = some .directory :=
  h.toIsTree.isPlaced_of_followFrom (h.directory_start p)
    (fun _ => slash_not_mem_of_mem_pieces) hl

theorem isPlace_of_follow (h : d.IsSound) {f : Found} (hf : d.follow p = .ok f)
    (he : f.entry? = some loc) : d.IsPlace loc := by
  rw [follow_eq (ne_nil_of_follow hf)] at hf
  have hp := h.toIsTree.isPlaced_of_followFrom (h.directory_start p)
    (fun _ => slash_not_mem_of_mem_pieces) hf
  cases f with
  | directory l => simp [Found.entry?] at he
  | file l bytes =>
    obtain rfl := Option.some.inj he
    exact hp
  | missing l =>
    obtain rfl := Option.some.inj he
    exact hp

/-! ## Changes -/

/-- A node may be put at a place, if no directory is replaced. -/
theorem put (h : d.IsSound) (hp : d.IsPlace loc) {node : Node}
    (hold : d.node? loc = some .directory → node = .directory) : (d.put loc node).IsSound := by
  obtain ⟨dir, n, rfl, hn, hdir⟩ := hp
  have hkeep {l : Location} (hl : d.node? l = some .directory) :
      (d.put (dir ++ [n]) node).node? l = some .directory := by
    by_cases he : l = dir ++ [n]
    · subst he
      rw [node?_put_self (by simp), hold hl]
    · rwa [node?_put_of_ne he]
  refine ⟨⟨?_, ?_⟩, hkeep h.workDir⟩
  · have hrest : ((d.nodes.filter (·.1 != dir ++ [n])).map (·.1)).Nodup :=
      (List.filter_sublist.map _).nodup h.nodup
    refine List.nodup_cons.2 ⟨?_, hrest⟩
    simp
  · intro e he
    rcases List.mem_cons.1 he with rfl | he
    · exact ⟨dir, n, rfl, hn, hkeep hdir⟩
    · obtain ⟨dir', n', hloc, hn', hdir'⟩ := h.entry e (List.mem_filter.1 he).1
      exact ⟨dir', n', hloc, hn', hkeep hdir'⟩

theorem writeText (h : d.IsSound) {t : Text} (hw : d.writeText p t = .ok d') : d'.IsSound := by
  have hput {f : Found} {loc : Location} (hf : d.follow p = .ok f) (he : f.entry? = some loc) :
      (d.put loc (.file (encode t))).IsSound := by
    refine h.put (h.isPlace_of_follow hf he) fun hd => ?_
    rw [follow_eq (ne_nil_of_follow hf)] at hf
    obtain ⟨-, hn⟩ | ⟨bytes, -, hn⟩ := node?_of_followFrom hf he <;> simp [hd] at hn
  unfold Disk.writeText at hw
  split at hw
  · cases hw
    exact hput ‹_› rfl
  · cases hw
    exact hput ‹_› rfl
  · simp at hw
  · simp at hw

end IsSound

theorem isName_of_components (h : p.components.getLast? = some (.name n)) : Path.IsName n := by
  rw [Path.components_eq] at h
  rcases List.eq_nil_or_concat p.steps with hs | ⟨ss, s, hs⟩
  · rw [hs, List.map_nil, List.append_nil] at h
    rcases p.areParts.lead with hl | hl | hl <;> simp [hl] at h
  · have hmem : s ∈ p.steps := by simp [hs]
    rw [hs, List.concat_eq_append, List.map_append, ← List.append_assoc, List.map_singleton,
      List.getLast?_concat, Option.some.injEq, Path.Component.ofStep] at h
    split at h
    · simp at h
    · rename_i hp
      cases h
      have hstep := Path.isStep_iff.1 (Path.isStep_of_mem_steps hmem)
      exact ⟨fun h => hstep (.inl h), fun h => hstep (.inr h), hp,
        Path.slash_not_mem_of_mem_steps hmem⟩

namespace IsSound

theorem makeDirectory (h : d.IsSound) (hm : d.makeDirectory p = .ok d') : d'.IsSound := by
  obtain ⟨dir, n, hlast, hlead, -, -, rfl⟩ := makeDirectory_ok hm
  exact h.put ⟨dir, n, rfl, isName_of_components hlast, h.directory_of_leadsTo hlead⟩ fun _ => rfl

theorem ensureDirectory (h : d.IsSound) (he : d.ensureDirectory p = .ok d') : d'.IsSound := by
  unfold Disk.ensureDirectory at he
  split at he
  · cases he
    exact h.makeDirectory ‹_›
  · split at he
    · cases he
      exact h
    · simp at he

theorem ensureDirectories (h : d.IsSound) (comps : List Path.Component) :
    (d.ensureDirectories comps).1.IsSound := by
  fun_induction Disk.ensureDirectories d comps with
  | case1 => exact h
  | case2 _ _ _ _ hm => exact h.makeDirectory hm
  | case3 _ _ _ _ _ _ he ih =>
    rw [he] at ih
    exact ih
  | case4 _ _ _ _ _ he _ he' ih =>
    rw [he] at ih
    exact ih.ensureDirectory he'
  | case5 _ _ _ _ _ he _ _ ih =>
    rw [he] at ih
    exact ih
  | case6 => exact h
  | case7 => exact h

end IsSound

/-! ## Nothing left to do -/

/-- Making a directory that is there changes nothing. -/
theorem LeadsTo.ensureDirectories_there (hn : Path.IsName n) (h : d.LeadsTo (p.join n) loc) :
    d.ensureDirectories (p.join n).components = (d, none) := by
  have hne : (p.join n).components ≠ [] := by simp [Path.components_join p hn]
  have hd : d.isDirectory (p.join n).normal := by
    rw [isDirectory_iff (normal_join_ne_nil p hn)]
    exact ⟨loc, h.of_steps (Path.isAbsolute_normal _) (Path.steps_normal _)⟩
  obtain ⟨dir, hdir⟩ := exists_leadsTo_of_follow_join hn (h.follow (Path.join_ne_nil p hn))
  have htaken : (d.node? (dir ++ [n])).isSome ∨ maxName < byteLength n := by
    obtain ⟨links, hj⟩ := hdir.follow_join hn
    rw [h.follow (Path.join_ne_nil p hn)] at hj
    by_contra hc
    rw [not_or, Option.not_isSome_iff_eq_none] at hc
    simp [followFrom_missing hn hc.2 hc.1] at hj
  have hmake : ∃ e, d.makeDirectory (p.join n).normal = .error e ∧ e ≠ .notFound := by
    rw [hdir.makeDirectory_join hn]
    by_cases hl : maxName < byteLength n
    · exact ⟨_, if_pos hl, by simp⟩
    · refine ⟨.alreadyExists, ?_, by simp⟩
      rw [if_neg hl, if_pos (htaken.resolve_right hl)]
  obtain ⟨e, hm, he⟩ := hmake
  rw [Path.normal] at hm hd
  rw [Disk.ensureDirectories, if_neg hne, hm]
  cases e with
  | notFound => exact absurd rfl he
  | _ => simp only [hd, if_true]

/-- Writing the text that a file holds changes nothing. -/
theorem agree_writeText {t : Text} (h : d.follow p = .ok (.file loc (encode t))) :
    ∃ d', d.writeText p t = .ok d' ∧ d.Agree d' := by
  refine ⟨d.put loc (.file (encode t)), by rw [Disk.writeText, h], rfl, fun l => ?_⟩
  have hn := node?_of_follow_file h
  by_cases he : l = loc
  · rw [he, node?_put_self (ne_nil_of_node? hn (by simp)), hn]
  · exact node?_put_of_ne he ..

end Disk

end Bookbinder
