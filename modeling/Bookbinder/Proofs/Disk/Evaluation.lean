import Bookbinder.Proofs.Disk.Following

/-!
# Following a path by computation

`Disk.followFrom` recurses along a measure, and such a recursion does not compute in the kernel.
`Disk.followFromWithin` does the same in so many steps, by recursion on their number, and what it finds is
what is found (`followFrom_of_within`). So on a given disk a computation shows where a path leads
(`follow_of_within`) and what making a directory does (`makeDirectory_of_within`).
-/

namespace Bookbinder

namespace Disk

/-- Follows the pieces of a path as `followFrom` does, if that takes fewer than `fuel` steps. -/
def followFromWithin (d : Disk) :
    Nat → Nat → Location → List Text → Option (Except DiskError Found)
  | 0, _, _, _ => none
  | _ + 1, _, here, [] => some (.ok (.directory here))
  | fuel + 1, links, here, piece :: rest =>
    if piece = [] ∨ piece = ['.'] then d.followFromWithin fuel links here rest
    else if piece = ['.', '.'] then d.followFromWithin fuel links here.dropLast rest
    else if maxName < byteLength piece then some (.error .nameTooLong)
    else
      let loc := here ++ [piece]
      match d.node? loc with
      | none => some (if rest = [] then .ok (.missing loc) else .error .notFound)
      | some .directory => d.followFromWithin fuel links loc rest
      | some (.file bytes) => some (if rest = [] then .ok (.file loc bytes) else .error .notDirectory)
      | some (.link target) =>
        match links with
        | 0 => some (.error .tooManyLinks)
        | n + 1 =>
          d.followFromWithin fuel n (if target.isAbsolute then [] else here)
            (splitWhen (· == '/') target ++ rest)

/-- Follows a path as `follow` does, if that takes fewer than `fuel` steps. -/
def followWithin (d : Disk) (fuel : Nat) (p : Path) : Option (Except DiskError Found) :=
  if p = [] then some (.error .notFound)
  else
    d.followFromWithin fuel maxLinks (if p.isAbsolute then [] else d.workDir) (splitWhen (· == '/') p)

/-- The directory that a path leads to, if it takes fewer than `fuel` steps to get there. -/
def leadsWithin (d : Disk) (fuel : Nat) (p : Path) : Option Location :=
  match d.followFromWithin fuel maxLinks (d.start p) (splitWhen (· == '/') p) with
  | some (.ok (.directory loc)) => some loc
  | _ => none

/-- What `makeDirectory` answers if it takes fewer than `fuel` steps to the directory above. -/
def makeDirectoryWithin (d : Disk) (fuel : Nat) (p : Path) : Option (Except DiskError Disk) :=
  match p.components.getLast? with
  | some (.name name) =>
    (d.leadsWithin fuel (Path.ofComponents p.parentComponents)).map fun dir =>
      if maxName < byteLength name then .error .nameTooLong
      else if (d.node? (dir ++ [name])).isSome then .error .alreadyExists
      else .ok (d.put (dir ++ [name]) .directory)
  | _ => none

section Within

variable {d : Disk} {links : Nat} {here loc : Location} {pieces : List Text} {p : Path}

theorem followFrom_of_within (fuel : Nat) {r : Except DiskError Found}
    (h : d.followFromWithin fuel links here pieces = some r) :
    d.followFrom links here pieces = r := by
  induction fuel generalizing links here pieces with
  | zero => cases h
  | succ fuel ih =>
    cases pieces with
    | nil =>
      rw [followFrom_nil]
      exact Option.some.inj h
    | cons piece rest =>
      rw [followFromWithin] at h
      by_cases hskip : piece = [] ∨ piece = ['.']
      · rw [if_pos hskip] at h
        rw [followFrom_skip hskip]
        exact ih h
      rw [if_neg hskip] at h
      by_cases hparent : piece = ['.', '.']
      · rw [if_pos hparent] at h
        rw [hparent, followFrom_parent]
        exact ih h
      rw [if_neg hparent] at h
      by_cases hlong : maxName < byteLength piece
      · rw [if_pos hlong] at h
        rw [followFrom, if_neg hskip, if_neg hparent, if_pos hlong]
        exact Option.some.inj h
      rw [if_neg hlong] at h
      rw [followFrom_entry ⟨hskip, hparent, hlong⟩]
      cases hn : d.node? (here ++ [piece]) with
      | none =>
        simp only [hn] at h ⊢
        exact Option.some.inj h
      | some n =>
        simp only [hn] at h ⊢
        cases n with
        | directory => exact ih h
        | file bytes => exact Option.some.inj h
        | link target =>
          cases links with
          | zero => exact Option.some.inj h
          | succ n => exact ih h

theorem follow_of_within (fuel : Nat) {r : Except DiskError Found}
    (h : d.followWithin fuel p = some r) : d.follow p = r := by
  rw [followWithin] at h
  rw [follow]
  split at h
  · rw [if_pos (by assumption)]
    exact Option.some.inj h
  · rw [if_neg (by assumption)]
    exact followFrom_of_within fuel h

theorem leadsTo_of_within (fuel : Nat) (h : d.leadsWithin fuel p = some loc) : d.LeadsTo p loc := by
  rw [leadsWithin] at h
  split at h
  · rename_i hf
    obtain rfl := Option.some.inj h
    exact followFrom_of_within fuel hf
  · cases h

theorem makeDirectory_of_within (fuel : Nat) {r : Except DiskError Disk}
    (h : d.makeDirectoryWithin fuel p = some r) : d.makeDirectory p = r := by
  rw [makeDirectoryWithin] at h
  split at h
  · rename_i hlast
    obtain ⟨dir, hdir, rfl⟩ := Option.map_eq_some_iff.1 h
    exact makeDirectory_of_leadsTo hlast (leadsTo_of_within fuel hdir)
  · cases h

theorem canonical_of_follow_directory (h : d.follow p = .ok (.directory loc)) :
    d.canonical p = .ok loc := by
  rw [canonical, h]

theorem canonical_root (d : Disk) : d.canonical ['/'] = .ok [] :=
  canonical_of_follow_directory (follow_of_within 3 rfl)

end Within

end Disk

end Bookbinder
