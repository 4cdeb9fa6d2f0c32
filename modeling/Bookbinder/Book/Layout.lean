import Bookbinder.Module.Category
import Bookbinder.Slug

/-!
# The layout of a book

Where the pages of a book lie below its directory:

* `index.md`, the home page;
* `chapters/<category>/index.qmd` for each category;
* `chapters/<category>/<sub-category>/index.qmd` for each sub-category;
* `chapters/<category>/<sub-category>/<module>.qmd` for each module.

Names of directories and files are slugs, made unique among their siblings.
-/

namespace Bookbinder

/-- A sub-category and the names of its directory and of its modules' files. -/
structure SubCategoryPlace where
  subCategory : SubCategory
  dir : Text
  modules : List (ModuleDoc × Text)
deriving DecidableEq, Repr

/-- A category and the names of its directory and of what it holds. -/
structure CategoryPlace where
  category : Category
  dir : Text
  subCategories : List SubCategoryPlace
deriving DecidableEq, Repr

/-- Where the pages of a book lie. -/
abbrev Layout := List CategoryPlace

namespace Layout

def chaptersDir : Text := "chapters"

def homePage : Text := "index.md"

def indexPage : Text := "index.qmd"

def projectFile : Text := "_quarto.yml"

/-- The slug of a directory. -/
def dirSlug (name : Text) : Text :=
  let slug := slugify name
  if slug.isEmpty then "untitled" else slug

/-- The slug of a module's file; `index` belongs to the page of its sub-category. -/
def moduleSlug (name : Text) : Text :=
  let slug := slugify name
  if slug.isEmpty then "module"
  else if slug = "index" then "index-module"
  else slug

/-- The names of the files of modules in one directory. -/
def moduleFiles (ms : List ModuleDoc) : List Text :=
  ((⟨["index"]⟩ : SlugSet).claimAll (ms.map (moduleSlug ·.info.name))).1.map (· ++ ".qmd".toList)

/-- The names of sibling directories. -/
def siblingDirs (names : List Text) : List Text := (({} : SlugSet).claimAll (names.map dirSlug)).1

def placeSubCategory (s : SubCategory) (dir : Text) : SubCategoryPlace :=
  ⟨s, dir, s.modules.zip (moduleFiles s.modules)⟩

def placeCategory (c : Category) (dir : Text) : CategoryPlace :=
  ⟨c, dir, c.subCategories.zipWith placeSubCategory (siblingDirs (c.subCategories.map (·.name)))⟩

/-- The layout of the pages of categories. -/
def ofCategories (cs : List Category) : Layout :=
  cs.zipWith placeCategory (siblingDirs (cs.map (·.name)))

end Layout

/-- A chapter of a book: a page, or a part with pages of its own. -/
inductive Chapter where
  | page (path : Path)
  | part (path : Path) (pages : List Path)
deriving DecidableEq, Repr

namespace Layout

/-- The path of a page in nested directories. -/
def below (dirs : List Text) (page : Text) : Path := joinWith ['/'] (dirs ++ [page])

/-- The pages of a sub-category, its index first. -/
def subCategoryPages (category : Text) (s : SubCategoryPlace) : List Path :=
  (indexPage :: s.modules.map (·.2)).map (below [chaptersDir, category, s.dir])

/-- The home page, then a part for each category. -/
def chapters (l : Layout) : List Chapter :=
  .page homePage :: l.map fun c =>
    .part (below [chaptersDir, c.dir] indexPage) (c.subCategories.flatMap (subCategoryPages c.dir))

end Layout

end Bookbinder
