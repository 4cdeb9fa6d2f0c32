import Bookbinder.Book.Page
import Bookbinder.Comment.Parser
import Bookbinder.Proofs.Text.Joining

/-!
# Modules listed on an index page

The index page of a sub-category lists its modules below a heading (`lines_ofSection`): for each one its
link, and behind it the start of its description (`IsListed`). Of a description no more than twenty words
are shown (`forall₂_words_truncateWords`). If words are left out, the others are joined by spaces; if not,
the description is shown as it stands, with its line feeds. So a module is listed on one line only if its
description has one line or is a long one (`KeepsLine`, `ofSection_modules`).
-/

namespace Bookbinder

namespace Page

variable {n : Nat} {t title : Text} {l : PageLink} {ls : List Text} {modules : List PageLink}

/-! ## Truncated texts -/

theorem truncateWords_of_le (h : (words t).length ≤ n) : truncateWords n t = t := if_pos h

theorem truncateWords_of_lt (h : n < (words t).length) :
    truncateWords n t = joinWith [' '] ((words t).take n) ++ "...".toList :=
  if_neg (Nat.not_le_of_lt h)

/-- Words that are joined by spaces stand on one line. -/
theorem newline_not_mem_truncateWords (h : n < (words t).length) : '\n' ∉ truncateWords n t := by
  rw [truncateWords_of_lt h, List.mem_append, not_or]
  refine ⟨fun hn => ?_, by decide⟩
  rcases of_mem_joinWith hn with hn | ⟨w, hw, hn⟩
  · simp at hn
  · exact absurd ((of_mem_words (List.mem_of_mem_take hw)).1 _ hn) (by decide)

/-- The words of a truncated text are the first words of the text, the last one with dots behind it. -/
theorem words_truncateWords (hn : n ≠ 0) (h : n < (words t).length) : ∃ ws w,
    (words t).take n = ws ++ [w] ∧ words (truncateWords n t) = ws ++ [w ++ "...".toList] := by
  have hne : (words t).take n ≠ [] := by
    intro he
    have hlength := congrArg List.length he
    rw [List.length_take_of_le (Nat.le_of_lt h)] at hlength
    exact hn hlength
  obtain ⟨ws, w, htake⟩ := (List.eq_nil_or_concat _).resolve_left hne
  rw [List.concat_eq_append] at htake
  refine ⟨ws, w, htake, ?_⟩
  have hword : ∀ u ∈ ws ++ [w], HasNoBlank u ∧ u ≠ [] := by
    intro u hu
    rw [← htake] at hu
    exact of_mem_words (List.mem_of_mem_take hu)
  rw [truncateWords_of_lt h, htake, joinWith_concat_append]
  apply words_joinWith
  intro u hu
  rcases List.mem_append.1 hu with hu | hu
  · exact hword u (List.mem_append_left _ hu)
  · have hw := (hword w (by simp)).1
    rw [List.mem_singleton.1 hu]
    refine ⟨fun x hx => ?_, by simp⟩
    rcases List.mem_append.1 hx with hx | hx
    · exact hw x hx
    · have hdots : HasNoBlank "...".toList := by decide
      exact hdots x hx

/-- Each of the first words is the start of a word that is shown, and no other word is shown. -/
theorem forall₂_words_truncateWords (hn : n ≠ 0) (t : Text) :
    List.Forall₂ (· <+: ·) ((words t).take n) (words (truncateWords n t)) := by
  rcases Nat.lt_or_ge n (words t).length with h | h
  · obtain ⟨ws, w, htake, hwords⟩ := words_truncateWords hn h
    rw [htake, hwords]
    exact List.rel_append (List.forall₂_same.2 fun u _ => List.prefix_rfl)
      (.cons (List.prefix_append ..) .nil)
  · rw [truncateWords_of_le h, List.take_of_length_le h]
    exact List.forall₂_same.2 fun u _ => List.prefix_rfl

/-! ## Listed modules -/

/-- The link of a module in a list. -/
def PageLink.mark (l : PageLink) : Text :=
  "- [".toList ++ l.name ++ "](".toList ++ l.href ++ ")".toList

/-- What is shown of the description of a module, behind its link. -/
def PageLink.excerpt (l : PageLink) : Text :=
  omitIf l.description.isEmpty (": ".toList ++ truncateWords 20 l.description)

theorem moduleLine_eq (l : PageLink) : moduleLine l = (l.mark ++ l.excerpt) ++ ['\n'] := rfl

/-- The description has one line, or it has so many words that some are left out. -/
def KeepsLine (l : PageLink) : Prop := '\n' ∈ l.description → 20 < (words l.description).length

/-- These lines list the module: the first one starts with its link, up to twenty words of the description
stand behind the link, and there are more lines for the line feeds of a description that is not cut. -/
structure IsListed (l : PageLink) (ls : List Text) : Prop where
  mark : ∃ line rest, ls = line :: rest ∧ l.mark <+: line
  excerpt : ∃ shown, joinWith ['\n'] ls = l.mark ++ omitIf l.description.isEmpty (": ".toList ++ shown) ∧
    List.Forall₂ (· <+: ·) ((words l.description).take 20) (words shown) ∧ (words shown).length ≤ 20
  length : ls.length = if 20 < (words l.description).length then 1 else l.description.count '\n' + 1

theorem count_excerpt (l : PageLink) : l.excerpt.count '\n' =
    if 20 < (words l.description).length then 0 else l.description.count '\n' := by
  have hshown : l.excerpt.count '\n' = (truncateWords 20 l.description).count '\n' := by
    unfold PageLink.excerpt
    cases hd : l.description with
    | nil => rfl
    | cons x d =>
      have hsign : ": ".toList.count '\n' = 0 := by decide
      show (": ".toList ++ truncateWords 20 (x :: d)).count '\n' = _
      rw [List.count_append, hsign, Nat.zero_add]
  rw [hshown]
  split
  · rename_i h
    exact List.count_eq_zero.2 (newline_not_mem_truncateWords h)
  · rename_i h
    rw [truncateWords_of_le (Nat.le_of_not_lt h)]

theorem isListed_lines (hname : '\n' ∉ l.name) (hhref : '\n' ∉ l.href) :
    IsListed l (lines (l.mark ++ l.excerpt)) := by
  have hmark : '\n' ∉ l.mark := by
    show '\n' ∉ "- [".toList ++ l.name ++ "](".toList ++ l.href ++ ")".toList
    simp only [List.mem_append, not_or]
    exact ⟨⟨⟨⟨by decide, hname⟩, by decide⟩, hhref⟩, by decide⟩
  obtain ⟨line, rest, hlines⟩ := exists_lines_eq_cons l.excerpt
  have hwords := forall₂_words_truncateWords (n := 20) (by decide) l.description
  refine ⟨⟨_, rest, lines_append_of_not_mem hmark hlines, List.prefix_append ..⟩,
    ⟨truncateWords 20 l.description, joinWith_lines _, hwords, ?_⟩, ?_⟩
  · rw [← hwords.length_eq]
    exact List.length_take_le ..
  · rw [length_lines, List.count_append, List.count_eq_zero.2 hmark, count_excerpt, Nat.zero_add]
    split <;> rfl

theorem IsListed.length_eq_one_iff (h : IsListed l ls) : ls.length = 1 ↔ KeepsLine l := by
  rw [h.length, KeepsLine]
  split
  · rename_i hlong
    exact ⟨fun _ _ => hlong, fun _ => rfl⟩
  · rename_i hlong
    rw [Nat.add_eq_right, List.count_eq_zero]
    exact ⟨fun hn hmem => absurd hmem hn, fun hk hmem => hlong (hk hmem)⟩

/-! ## Listings -/

theorem length_le_of_forall₂_isListed {listing : List (List Text)}
    (h : List.Forall₂ IsListed modules listing) : modules.length ≤ listing.flatten.length := by
  induction h with
  | nil => simp
  | cons hl _ ih =>
    obtain ⟨line, rest, rfl, -⟩ := hl.mark
    simp only [List.length_cons, List.flatten_cons, List.length_append]
    omega

/-- There is one line for each module, with its link, if and only if no listed module takes more. -/
theorem forall₂_mark_flatten_iff {listing : List (List Text)}
    (h : List.Forall₂ IsListed modules listing) :
    List.Forall₂ (fun l line => l.mark <+: line) modules listing.flatten ↔ ∀ l ∈ modules, KeepsLine l := by
  induction h with
  | nil => simp
  | @cons l ls modules listing hl hrest ih =>
    obtain ⟨line, rest, rfl, hmark⟩ := hl.mark
    rw [List.forall_mem_cons, ← hl.length_eq_one_iff, ← ih]
    constructor
    · intro hall
      have hlength := hall.length_eq
      have hle := length_le_of_forall₂_isListed hrest
      simp only [List.length_cons, List.flatten_cons, List.length_append] at hlength
      obtain rfl : rest = [] := List.length_eq_zero_iff.1 (by omega)
      exact ⟨rfl, (List.forall₂_cons.1 hall).2⟩
    · rintro ⟨hone, hall⟩
      obtain rfl : rest = [] := List.length_eq_zero_iff.1 (by simpa using hone)
      exact .cons hmark hall

theorem lines_flatMap_moduleLine (modules : List PageLink) (rest : Text) :
    lines (modules.flatMap moduleLine ++ rest) =
      (modules.map fun l => lines (l.mark ++ l.excerpt)).flatten ++ lines rest := by
  induction modules with
  | nil => rfl
  | cons l modules ih =>
    rw [List.flatMap_cons, moduleLine_eq, List.append_assoc, List.append_assoc, List.singleton_append,
      lines_append_cons_newline, ih, List.map_cons, List.flatten_cons, List.append_assoc]

/-- The line above the list of modules. -/
def modulesHeading (modules : List PageLink) : Text :=
  counted modules.length "module" ++ " in this section:".toList

theorem newline_not_mem_counted {noun : String} (h : '\n' ∉ noun.toList) : '\n' ∉ counted n noun := by
  have hdecimal : '\n' ∉ decimal n := by
    intro hn
    have hdigit := Nat.isDigit_of_mem_toDigits (by decide) (by decide) hn
    revert hdigit
    decide
  unfold counted
  split <;> simp [hdecimal, h]

/-- A blank line closes the title. -/
theorem exists_frontMatter_eq (title : Text) : ∃ above, frontMatter title = above ++ ['\n'] := by
  have hclose : "\"\n---\n\n".toList = "\"\n---\n".toList ++ ['\n'] := by decide
  have happ := congrArg (("---\ntitle: \"".toList ++ escapeTitle title) ++ ·) hclose
  exact ⟨_, happ.trans (List.append_assoc _ _ _).symm⟩

/-- The lines of an index page with modules: below the title and the heading comes the list. -/
theorem lines_ofSection (hne : modules ≠ []) (title : Text) (sections : List PageLink) :
    lines (ofSection title modules sections) =
      (lines (frontMatter title)).dropLast ++ modulesHeading modules :: [] ::
        ((modules.map fun l => lines (l.mark ++ l.excerpt)).flatten ++ [[], []]) := by
  obtain ⟨above, habove⟩ := exists_frontMatter_eq title
  have hheading : '\n' ∉ modulesHeading modules := by
    rw [modulesHeading, List.mem_append, not_or]
    exact ⟨newline_not_mem_counted (by decide), by decide⟩
  have hpage : ofSection title modules sections = above ++ '\n' :: (modulesHeading modules ++
      '\n' :: '\n' :: (modules.flatMap moduleLine ++ ['\n'])) := by
    have hempty : modules.isEmpty = false := by simpa using hne
    have hgap : " in this section:\n\n".toList = " in this section:".toList ++ ['\n', '\n'] := by
      decide
    rw [ofSection, hempty, habove, hgap, modulesHeading]
    simp only [Bool.false_eq_true, if_false, List.append_assoc, List.cons_append, List.nil_append]
  have htitle : (lines (frontMatter title)).dropLast = lines above := by
    rw [habove, lines_append_cons_newline]
    exact List.dropLast_concat
  rw [hpage, htitle, lines_append_cons_newline, lines_append_newline hheading, lines_cons_newline,
    lines_flatMap_moduleLine]
  rfl

/-- Below its title and heading an index page lists its modules in order, each behind its link with up to
twenty words of its description. There is one line for each module if and only if each description has one
line or is long enough to be cut. -/
theorem ofSection_modules (hne : modules ≠ []) (hline : ∀ l ∈ modules, '\n' ∉ l.name ∧ '\n' ∉ l.href)
    (title : Text) (sections : List PageLink) : ∃ listing : List (List Text),
    lines (ofSection title modules sections) =
      (lines (frontMatter title)).dropLast ++ modulesHeading modules :: [] ::
        (listing.flatten ++ [[], []]) ∧
    List.Forall₂ IsListed modules listing ∧
    (List.Forall₂ (fun l line => l.mark <+: line) modules listing.flatten ↔
      ∀ l ∈ modules, KeepsLine l) := by
  have hlisted : List.Forall₂ IsListed modules (modules.map fun l => lines (l.mark ++ l.excerpt)) := by
    rw [List.forall₂_map_right_iff, List.forall₂_same]
    exact fun l hl => isListed_lines (hline l hl).1 (hline l hl).2
  exact ⟨_, lines_ofSection hne title sections, hlisted, forall₂_mark_flatten_iff hlisted⟩

/-- A description of two paragraphs. -/
def usersLink : PageLink := ⟨"users", "users.qmd", "User endpoints.\n\nInternal."⟩

/-- A description of two lines that is cut. -/
def mailLink : PageLink := ⟨"mail", "mail.qmd",
  "Sends a mail to each user who asked for it and keeps a log of the mails that\ncame back to us over the last month."⟩

theorem ofSection_modules_users :
    [usersLink, mailLink] ≠ [] ∧
    (∀ l ∈ [usersLink, mailLink], '\n' ∉ l.name ∧ '\n' ∉ l.href) ∧
    ∃ listing : List (List Text),
      lines (ofSection "v1" [usersLink, mailLink] []) =
        (lines (frontMatter "v1")).dropLast ++ "2 modules in this section:".toList :: [] ::
          (listing.flatten ++ [[], []]) ∧
      List.Forall₂ IsListed [usersLink, mailLink] listing ∧
      ¬List.Forall₂ (fun l line => l.mark <+: line) [usersLink, mailLink] listing.flatten := by
  have hne : [usersLink, mailLink] ≠ [] := by simp
  have hline : ∀ l ∈ [usersLink, mailLink], '\n' ∉ l.name ∧ '\n' ∉ l.href := by decide
  obtain ⟨listing, hlines, hlisted, hiff⟩ := ofSection_modules hne hline "v1" []
  have hheading : modulesHeading [usersLink, mailLink] = "2 modules in this section:".toList := by
    decide +kernel
  rw [hheading] at hlines
  refine ⟨hne, hline, listing, hlines, hlisted, fun h => ?_⟩
  have hkeeps : 20 < (words usersLink.description).length :=
    hiff.1 h usersLink List.mem_cons_self (by decide)
  revert hkeeps
  decide +kernel

/-- A module need not be listed on one line. -/
theorem paragraphs_leave_line :
    ¬∀ title modules, modules ≠ [] → (∀ l ∈ modules, '\n' ∉ l.name ∧ '\n' ∉ l.href ∧
        ∃ raw, (Comment.parse raw).description = l.description) →
      ∃ above ls, lines (ofSection title modules []) =
          above ++ modulesHeading modules :: [] :: (ls ++ [[], []]) ∧
        List.Forall₂ (fun l line => l.mark <+: line) modules ls := by
  intro h
  have hdescription : (Comment.parse "/** User endpoints.\n\nInternal. */").description =
      usersLink.description := by
    decide +kernel
  obtain ⟨above, ls, hlines, hmarks⟩ := h "v1" [usersLink] (by simp) fun l hl => by
    rw [List.mem_singleton.1 hl]
    exact ⟨by decide, by decide, _, hdescription⟩
  have hpage : (lines (ofSection "v1" [usersLink] [])).length = 11 ∧
      (lines (ofSection "v1" [usersLink] []))[6]? =
        some "- [users](users.qmd): User endpoints.".toList := by
    decide +kernel
  have hlength := hmarks.length_eq
  -- With one line for the module, its line would have to be the heading.
  have habove : above.length = 6 := by
    have hall := hpage.1
    rw [hlines] at hall
    simp only [List.length_append, List.length_cons, List.length_nil] at hall hlength
    omega
  have hheading := hpage.2
  rw [hlines, ← habove, List.getElem?_append_right (Nat.le_refl _), Nat.sub_self] at hheading
  have hmark : modulesHeading [usersLink] = "- [users](users.qmd): User endpoints.".toList :=
    Option.some.inj hheading
  revert hmark
  decide +kernel

end Page

end Bookbinder
