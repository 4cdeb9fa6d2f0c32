import Bookbinder.Module.Category
import Mathlib.Data.List.Perm.Basic

/-!
# Grouping keeps modules

Grouping modules by category and sub-category loses none and doubles none: the modules of the groups are
the modules that were grouped, in another order (`modules_groupModules`). So counts over modules may be
taken before or after (`total_groupModules`).
-/

namespace Bookbinder

theorem nodup_eraseDups (names : List Text) : names.eraseDups.Nodup := by
  cases names with
  | nil => exact List.nodup_nil
  | cons name names =>
    rw [List.eraseDups_cons, List.nodup_cons]
    constructor
    · simp [List.mem_eraseDups]
    · exact nodup_eraseDups _
termination_by names.length
decreasing_by
  have := List.length_filter_le (fun b => !b == name) names
  simp only [List.length_cons]
  omega

theorem nodup_distinctNames (names : List Text) : (distinctNames names).Nodup :=
  (List.mergeSort_perm _ _).nodup_iff.2 (nodup_eraseDups names)

theorem mem_distinctNames {names : List Text} {name : Text} :
    name ∈ distinctNames names ↔ name ∈ names := by
  rw [distinctNames, List.mem_mergeSort, List.mem_eraseDups]

/-- Groups by different names, one after the other. -/
theorem flatMap_filter_perm (key : ModuleDoc → Text) {names : List Text} (hd : names.Nodup)
    (ms : List ModuleDoc) :
    (names.flatMap fun name => ms.filter (key · == name)).Perm
      (ms.filter fun m => names.contains (key m)) := by
  induction names with
  | nil => simp
  | cons name names ih =>
    obtain ⟨hn, hd⟩ := List.nodup_cons.1 hd
    have hfirst : (ms.filter fun m => (name :: names).contains (key m)).filter (key · == name) =
        ms.filter (key · == name) := by
      rw [List.filter_filter]
      apply List.filter_congr
      intro m _
      by_cases he : key m = name <;> simp [he]
    have hrest : (ms.filter fun m => (name :: names).contains (key m)).filter (!key · == name) =
        ms.filter fun m => names.contains (key m) := by
      rw [List.filter_filter]
      apply List.filter_congr
      intro m _
      by_cases he : key m = name
      · simp [he, hn]
      · simp [he]
    rw [List.flatMap_cons]
    refine ((ih hd).append_left _).trans ?_
    rw [← hfirst, ← hrest]
    exact List.filter_append_perm _ _

/-- The groups by all names that occur. -/
theorem flatMap_distinctNames_perm (key : ModuleDoc → Text) (ms : List ModuleDoc) :
    ((distinctNames (ms.map key)).flatMap fun name => ms.filter (key · == name)).Perm ms := by
  refine (flatMap_filter_perm key (nodup_distinctNames _) ms).trans (.of_eq ?_)
  rw [List.filter_eq_self]
  intro m hm
  rw [List.contains_iff_mem, mem_distinctNames]
  exact List.mem_map_of_mem hm

theorem modules_groupSubCategories (ms : List ModuleDoc) :
    ((groupSubCategories ms).flatMap (·.modules)).Perm ms := by
  rw [groupSubCategories, List.flatMap_map]
  refine (List.Perm.flatMap_left _ fun name _ => ?_).trans
    (flatMap_distinctNames_perm (·.info.subcategory) ms)
  exact List.mergeSort_perm _ _

/-- Grouping keeps every module once. -/
theorem modules_groupModules (ms : List ModuleDoc) :
    ((groupModules ms).flatMap Category.modules).Perm ms := by
  rw [groupModules, List.flatMap_map]
  refine (List.Perm.flatMap_left _ fun name _ => ?_).trans
    (flatMap_distinctNames_perm (·.info.category) ms)
  exact modules_groupSubCategories _

/-! ## Counts -/

theorem total_cons (n : Nat) (ns : List Nat) : total (n :: ns) = n + total ns := rfl

theorem total_perm {ns ns' : List Nat} (h : ns.Perm ns') : total ns = total ns' := by
  induction h with
  | nil => rfl
  | cons n _ ih => rw [total_cons, total_cons, ih]
  | swap m n ns =>
    simp only [total_cons]
    omega
  | trans _ _ ih ih' => exact ih.trans ih'

theorem total_groupModules (ms : List ModuleDoc) (count : ModuleDoc → Nat) :
    total (((groupModules ms).flatMap Category.modules).map count) = total (ms.map count) :=
  total_perm ((modules_groupModules ms).map count)

end Bookbinder
