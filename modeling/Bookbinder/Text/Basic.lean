/-!
# Text

A `Text` is a list of characters. This module has the operations that reading comments, settings and
sources share: trimming blanks (`trim`), cutting at characters (`splitWhen`, `splitOnce`, `lines`,
`words`) and stripping a fixed head or tail (`stripHead?`, `stripTail?`).

A *blank* is a character with the Unicode property `White_Space` (`isBlank`); a *word character* is an
ASCII letter, an ASCII digit or the underscore (`isWordChar`).
-/

namespace Bookbinder

/-- A list of characters. -/
abbrev Text := List Char

instance : Coe String Text := ⟨String.toList⟩

/-- Membership in a list of inclusive ranges. -/
def inRanges (ranges : List (Nat × Nat)) (n : Nat) : Bool :=
  ranges.any fun r => r.1 ≤ n && n ≤ r.2

/-! ## Character classes -/

/-- Code points with the property `White_Space`, as inclusive ranges. -/
def blankRanges : List (Nat × Nat) :=
  [(0x9, 0xD), (0x20, 0x20), (0x85, 0x85), (0xA0, 0xA0), (0x1680, 0x1680), (0x2000, 0x200A),
   (0x2028, 0x2029), (0x202F, 0x202F), (0x205F, 0x205F), (0x3000, 0x3000)]

/-- White space in the sense of Unicode. -/
def isBlank (c : Char) : Bool := inRanges blankRanges c.toNat

/-- An ASCII letter, an ASCII digit or the underscore. -/
def isWordChar (c : Char) : Bool := c.isAlphanum || c == '_'

/-! ## Trimming -/

/-- Drops the blanks at the start. -/
def trimStart (t : Text) : Text := t.dropWhile isBlank

/-- Drops the longest tail whose characters all satisfy `p`. -/
def dropEndWhile (p : Char → Bool) (t : Text) : Text := (t.reverse.dropWhile p).reverse

/-- Drops the blanks at the end. -/
def trimEnd (t : Text) : Text := dropEndWhile isBlank t

/-- Drops the blanks at both ends. -/
def trim (t : Text) : Text := trimEnd (trimStart t)

/-! ## Cutting -/

/-- The pieces between the characters that satisfy `p`; always at least one piece. -/
def splitWhen (p : Char → Bool) : Text → List Text
  | [] => [[]]
  | c :: cs =>
    if p c then [] :: splitWhen p cs
    else match splitWhen p cs with
      | [] => [[c]]
      | piece :: pieces => (c :: piece) :: pieces

/-- The lines of a text: the pieces between line feeds. -/
def lines (t : Text) : List Text := splitWhen (· == '\n') t

/-- The maximal runs of characters that are not blank. -/
def words (t : Text) : List Text := (splitWhen isBlank t).filter (!·.isEmpty)

/-- The text before and the text after the first character that satisfies `p`. -/
def splitOnce (p : Char → Bool) : Text → Option (Text × Text)
  | [] => none
  | c :: cs => if p c then some ([], cs) else (splitOnce p cs).map fun s => (c :: s.1, s.2)

/-- The text before and after the first blank; a text without blanks has an empty remainder. -/
def splitWord (t : Text) : Text × Text := (splitOnce isBlank t).getD (t, [])

/-- What follows `head`, if the text starts with it. -/
def stripHead? : Text → Text → Option Text
  | [], t => some t
  | _ :: _, [] => none
  | h :: head, c :: cs => if h = c then stripHead? head cs else none

/-- The text without `head` at its start, if it is there. -/
def stripHead (head t : Text) : Text := (stripHead? head t).getD t

/-- The text without `tail` at its end, if it is there. -/
def stripTail (tail t : Text) : Text :=
  ((stripHead? tail.reverse t.reverse).map List.reverse).getD t

/-- The text starts with `head`. -/
def startsWith (head t : Text) : Bool := (stripHead? head t).isSome

/-- The pieces joined with `sep` between them. -/
def joinWith (sep : Text) : List Text → Text
  | [] => []
  | [t] => t
  | t :: ts => t ++ sep ++ joinWith sep ts

/-! ## Order -/

/-- Lexicographic order of lists. -/
def lexLe [DecidableEq α] (le : α → α → Bool) : List α → List α → Bool
  | [], _ => true
  | _ :: _, [] => false
  | a :: as, b :: bs => if a = b then lexLe le as bs else le a b

/-- Texts in the order of their code points. -/
def textLe (s t : Text) : Bool := lexLe (fun a b => Nat.ble a.toNat b.toNat) s t

/-! ## Measures -/

/-- Decimal digits of a number. -/
def decimal (n : Nat) : Text := Nat.toDigits 10 n

/-- The sum of numbers. -/
def total (ns : List Nat) : Nat := ns.foldr Nat.add 0

/-- The number of bytes of a text in UTF-8. -/
def byteLength (t : Text) : Nat := total (t.map Char.utf8Size)

/-- The first `n` bytes of a text, if a character ends there. -/
def takeBytes? : Text → Nat → Option Text
  | [], n => if n = 0 then some [] else none
  | c :: cs, n =>
    if n = 0 then some []
    else if c.utf8Size ≤ n then (takeBytes? cs (n - c.utf8Size)).map (c :: ·)
    else none

end Bookbinder
