import Bookbinder.Module.Basic

/-!
# Categories

Modules are grouped by category and then by sub-category. Groups come in the order of their names, and
so do the modules of a sub-category; modules of one name keep the order they were given in.
-/

namespace Bookbinder

/-- Modules of one sub-category. -/
structure SubCategory where
  name : Text
  modules : List ModuleDoc
deriving DecidableEq, Repr

/-- Sub-categories of one category. -/
structure Category where
  name : Text
  subCategories : List SubCategory
deriving DecidableEq, Repr

namespace Category

/-- The modules of a category. -/
def modules (c : Category) : List ModuleDoc := c.subCategories.flatMap (·.modules)

end Category

/-- The names without repetition, in order of code points. -/
def distinctNames (names : List Text) : List Text :=
  names.eraseDups.mergeSort textLe

/-- The modules in order of their names. -/
def sortByName (ms : List ModuleDoc) : List ModuleDoc :=
  ms.mergeSort fun a b => textLe a.info.name b.info.name

/-- The sub-categories of modules of one category. -/
def groupSubCategories (ms : List ModuleDoc) : List SubCategory :=
  (distinctNames (ms.map (·.info.subcategory))).map fun name =>
    ⟨name, sortByName (ms.filter (·.info.subcategory == name))⟩

/-- The categories of modules. -/
def groupModules (ms : List ModuleDoc) : List Category :=
  (distinctNames (ms.map (·.info.category))).map fun name =>
    ⟨name, groupSubCategories (ms.filter (·.info.category == name))⟩

end Bookbinder
