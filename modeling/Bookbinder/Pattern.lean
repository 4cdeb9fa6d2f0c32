import Bookbinder.Text.Basic

/-!
# Patterns

A `Pattern` describes a stretch of text. `Pattern.find?` looks for the leftmost place where it matches;
among the ways to match there the first one counts, where an alternative comes before those written
after it, a greedy repetition tries its longest run first and a reluctant one its shortest. A pattern
may mark one part of itself as captured, and the answer of a search is that part's text.

Repetition is over character classes only, so that every run is bounded by the text.
-/

namespace Bookbinder

/-- A set of characters. -/
inductive CharClass where
  | exactly (c : Char)
  | word
  | blank
  | inLine
  | any
deriving DecidableEq, Repr

/-- The character belongs to the class. -/
def CharClass.contains : CharClass → Char → Bool
  | exactly d, c => c == d
  | word, c => isWordChar c
  | blank, c => isBlank c
  | inLine, c => c != '\n'
  | any, _ => true

/-- Which runs a repetition tries first. -/
inductive Appetite where
  | greedy
  | reluctant
deriving DecidableEq, Repr

/-- A description of a stretch of text. -/
inductive Pattern where
  /-- Matches nothing at all. -/
  | never
  /-- The empty stretch. -/
  | empty
  /-- The empty stretch at the start of the text. -/
  | start
  /-- The empty stretch between a word character and something else. -/
  | boundary
  | one (c : CharClass)
  | many (c : CharClass) (appetite : Appetite)
  | seq (p q : Pattern)
  | alt (p q : Pattern)
  /-- The part of a pattern whose text a search returns. -/
  | capture (p : Pattern)
deriving DecidableEq, Repr

instance : Append Pattern := ⟨.seq⟩

/-- A place in a text: the character before it and the text after it. -/
structure Cursor where
  before : Option Char
  rest : Text
deriving DecidableEq, Repr

namespace Cursor

/-- The text between two places, the second further on. -/
def textTo (a b : Cursor) : Text := a.rest.take (a.rest.length - b.rest.length)

/-- Exactly one side of the place is a word character. -/
def atBoundary (a : Cursor) : Bool := a.before.any isWordChar != a.rest.head?.any isWordChar

end Cursor

namespace Pattern

/-- Exactly this text. -/
def literal (t : Text) : Pattern := t.foldr (fun c p => seq (one (.exactly c)) p) empty

instance : Coe String Pattern := ⟨fun s => literal s.toList⟩

/-- The pattern or nothing, the pattern first. -/
def optional (p : Pattern) : Pattern := alt p empty

/-- The first of several patterns that matches. -/
def anyOf : List Pattern → Pattern
  | [] => never
  | [p] => p
  | p :: ps => alt p (anyOf ps)

/-- One or more characters of a class, as many as possible. -/
def some1 (c : CharClass) : Pattern := one c ++ many c .greedy

/-- What is tried for each outcome of a match: the place reached and the captured text so far. -/
abbrev Continuation (α : Type) := Cursor → Option Text → Option α

/-- Tries a run of class members and then the continuation, longest run first. -/
def runGreedy (c : CharClass) (k : Cursor → Option α) (before : Option Char) : Text → Option α
  | [] => k ⟨before, []⟩
  | x :: xs =>
    if c.contains x then (runGreedy c k (some x) xs).orElse fun _ => k ⟨before, x :: xs⟩
    else k ⟨before, x :: xs⟩

/-- Tries a run of class members and then the continuation, shortest run first. -/
def runReluctant (c : CharClass) (k : Cursor → Option α) (before : Option Char) : Text → Option α
  | [] => k ⟨before, []⟩
  | x :: xs =>
    (k ⟨before, x :: xs⟩).orElse fun _ =>
      if c.contains x then runReluctant c k (some x) xs else none

/-- The first outcome of matching at a place that the continuation accepts. -/
def run : Pattern → Cursor → Option Text → Continuation α → Option α
  | never, _, _, _ => none
  | empty, a, cap, k => k a cap
  | start, a, cap, k => if a.before.isNone then k a cap else none
  | boundary, a, cap, k => if a.atBoundary then k a cap else none
  | one c, ⟨_, x :: xs⟩, cap, k => if c.contains x then k ⟨some x, xs⟩ cap else none
  | one _, ⟨_, []⟩, _, _ => none
  | many c .greedy, a, cap, k => runGreedy c (fun b => k b cap) a.before a.rest
  | many c .reluctant, a, cap, k => runReluctant c (fun b => k b cap) a.before a.rest
  | seq p q, a, cap, k => p.run a cap fun b cap => q.run b cap k
  | alt p q, a, cap, k => (p.run a cap k).orElse fun _ => q.run a cap k
  | capture p, a, cap, k => p.run a cap fun b _ => k b (some (a.textTo b))

/-- The first way the pattern matches right at a place: the text it captures, which is empty for a
pattern without a captured part. -/
def matchAt? (p : Pattern) (a : Cursor) : Option Text :=
  p.run a none fun _ cap => some (cap.getD [])

/-- The leftmost match from a place on. -/
def findFrom? (p : Pattern) (before : Option Char) : Text → Option Text
  | [] => p.matchAt? ⟨before, []⟩
  | x :: xs => (p.matchAt? ⟨before, x :: xs⟩).orElse fun _ => p.findFrom? (some x) xs

/-- The text captured by the leftmost match in a text. -/
def find? (p : Pattern) (t : Text) : Option Text := p.findFrom? none t

/-- The pattern matches somewhere in the text. -/
def occursIn (p : Pattern) (t : Text) : Bool := (p.find? t).isSome

end Pattern

end Bookbinder
