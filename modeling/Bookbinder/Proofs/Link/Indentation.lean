import Bookbinder.Comment.Parser
import Bookbinder.Link.Basic
import Bookbinder.Proofs.Text.Margins

/-!
# Indentation and line ends

Neither the reading of a block nor a link depends on the blanks at the ends of lines. Cleaning a block
takes the delimiters off the text as a whole and the gutter off each line, yet the cleaned lines follow
from the trimmed lines alone (`cleanLines_eq`); a window holds trimmed lines to begin with
(`Window.after?_eq`). So blanks may be added in the margins, and line feeds turned into carriage
returns with line feeds, without any effect (`parse_link_margins`).
-/

namespace Bookbinder

variable {s t : Text}

/-! ## Blocks -/

theorem head?_trim (t : Text) : (trim t).head?.any isBlank = false := by
  rw [← trimStart_trimEnd]
  exact head?_dropWhile isBlank _

theorem getLast?_of_isSuffix {p : Char → Bool} (h : s <:+ t) (ht : t.getLast?.any p = false) :
    s.getLast?.any p = false := by
  obtain ⟨u, rfl⟩ := h
  rw [List.getLast?_append] at ht
  cases hs : s.getLast? with
  | none => rfl
  | some x => rwa [hs] at ht

/-- The cleaned lines of a block follow from its trimmed lines. -/
theorem cleanLines_eq (h : SameLines s t) : cleanLines s = cleanLines t := by
  have hhead : SameLines (stripHead "/**".toList (trim s)) (stripHead "/**".toList (trim t)) :=
    h.trim.stripHead (by decide) (head?_trim s) (head?_trim t)
  have hlast (u : Text) : (stripHead "/**".toList (trim u)).getLast?.any isBlank = false :=
    getLast?_of_isSuffix (stripHead_isSuffix _ _) (getLast?_trim u)
  have hbody : SameLines (stripTail "*/".toList (stripHead "/**".toList (trim s)))
      (stripTail "*/".toList (stripHead "/**".toList (trim t))) :=
    hhead.stripTail (by decide) (hlast s) (hlast t)
  have hgutter := congrArg (List.map fun line => trim (stripHead "*".toList line)) hbody
  rwa [List.map_map, List.map_map] at hgutter

theorem Comment.parse_eq (h : SameLines s t) : parse s = parse t := by
  rw [parse, parse, cleanLines_eq h]

/-! ## Links -/

/-- The window at the start of some lines. -/
def Window.ofLines? (size : Nat) : List Text → Option Window
  | anchor :: line :: rest => some ⟨anchor, (line :: rest).take size⟩
  | _ => none

/-- A window is cut out of the trimmed lines. -/
theorem Window.after?_succ (t : Text) (last size : Nat) :
    after? t (last + 1) size = ofLines? size (((lines t).map trim).drop last) := by
  rw [after?, ← List.map_drop]
  rcases (lines t).drop last with _ | ⟨anchor, _ | ⟨line, rest⟩⟩
  · rfl
  · rfl
  · simp only [List.map_take, List.map_cons, ofLines?]

theorem Window.after?_eq (h : SameLines s t) (endLine size : Nat) :
    after? s endLine size = after? t endLine size := by
  cases endLine with
  | zero => rfl
  | succ last => rw [after?_succ, after?_succ, h]

theorem Linking.link_eq (h : SameLines s t) (g : Linking) (c : Comment) :
    g.link s c = g.link t c := by
  simp only [link, Window.after?_eq h]

/-! ## Margins -/

/-- Blanks at the ends of lines, carriage returns among them, change neither what a block says nor what
a comment is linked to. -/
theorem parse_link_margins :
    (∀ t t', AddsMargins t t' → Comment.parse t' = Comment.parse t ∧
      ∀ (g : Linking) (c : Comment), g.link t' c = g.link t c) ∧
    ∀ t, Comment.parse (withReturns t) = Comment.parse t ∧
      ∀ (g : Linking) (c : Comment), g.link (withReturns t) c = g.link t c := by
  have hmargins (t t' : Text) (h : AddsMargins t t') : Comment.parse t' = Comment.parse t ∧
      ∀ (g : Linking) (c : Comment), g.link t' c = g.link t c :=
    ⟨Comment.parse_eq h.sameLines, Linking.link_eq h.sameLines⟩
  exact ⟨hmargins, fun t => hmargins t (withReturns t) (addsMargins_withReturns t)⟩

/-- A block and the function under it. -/
def flushScript : Text := "/**\n * Adds.\n */\nconst f = (a) => a".toList

/-- The same lines with other margins. -/
def raggedScript : Text := "\t/**\u3000\r\n\t * Adds. \n\t */\n  const f = (a) => a\r".toList

theorem addsMargins_raggedScript : AddsMargins flushScript raggedScript := by
  refine .cons ⟨"\t".toList, "\u3000\r".toList, ?_, ?_, ?_⟩ (.cons ⟨"\t".toList, " ".toList, ?_, ?_, ?_⟩
    (.cons ⟨"\t".toList, [], ?_, ?_, ?_⟩ (.cons ⟨"  ".toList, "\r".toList, ?_, ?_, ?_⟩ .nil))) <;>
  decide

theorem parse_link_margins_raggedScript :
    AddsMargins flushScript raggedScript ∧
      Comment.parse raggedScript = Comment.parse flushScript ∧
      ∀ (g : Linking) (c : Comment), g.link raggedScript c = g.link flushScript c :=
  ⟨addsMargins_raggedScript, parse_link_margins.1 _ _ addsMargins_raggedScript⟩

example : ({} : Linking).link raggedScript { start := some ⟨1, 1⟩, stop := some ⟨3, 4⟩ } =
    .classified ⟨.function, some "a".toList⟩ ⟨"*/".toList, ["const f = (a) => a".toList]⟩ := by
  decide +kernel

end Bookbinder
