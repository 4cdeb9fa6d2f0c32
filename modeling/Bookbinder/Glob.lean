import Bookbinder.Text.Basic

/-!
# Globs

A glob is a pattern for paths: `?` stands for one character, `*` for any run of characters, `[a-z]` for
one character of a set and `[!a-z]` for one outside it. All of these also match `/`. A `**` stands for
any number of whole directories and has to be a path component of its own; at the end of a pattern it
stands for everything below.

`Glob.parse` reads a pattern, `Glob.isMatch` compares it with a text.
-/

namespace Bookbinder

namespace Glob

/-- A member of a character set. -/
inductive Span where
  | one (c : Char)
  | range (first last : Char)
deriving DecidableEq, Repr

/-- A part of a pattern. -/
inductive Token where
  | char (c : Char)
  | anyChar
  | within (spans : List Span)
  | except (spans : List Span)
  /-- Any run of characters. -/
  | anyRun
  /-- Any number of directories. -/
  | anyDirectories
deriving DecidableEq, Repr

/-- What is wrong with a pattern. -/
inductive Flaw where
  | badRange
  | badDirectories
  | badStars
deriving DecidableEq, Repr

/-- Where a pattern is wrong, counted in characters. -/
structure Fault where
  position : Nat
  flaw : Flaw
deriving DecidableEq, Repr

/-- The wording of a flaw. -/
def Flaw.message : Flaw → Text
  | badRange => "invalid range pattern"
  | badDirectories => "recursive wildcards must form a single path component"
  | badStars => "wildcards are either regular `*` or recursive `**`"

/-- The wording of a fault. -/
def Fault.message (f : Fault) : Text :=
  "Pattern syntax error near position ".toList ++ decimal f.position ++ ": ".toList ++ f.flaw.message

/-! ## Reading -/

/-- The spans of a character set; a dash between two characters makes a range. -/
def spans : Text → List Span
  | first :: '-' :: last :: rest => .range first last :: spans rest
  | c :: rest => .one c :: spans rest
  | [] => []

/-- Reads the set behind an opening bracket. A closing bracket in the first place is a member. -/
def charSet? : Text → Option (Token × Text)
  | '!' :: c :: rest => (splitOnce (· == ']') rest).map fun s => (.except (spans (c :: s.1)), s.2)
  | '!' :: [] => none
  | c :: rest => (splitOnce (· == ']') rest).map fun s => (.within (spans (c :: s.1)), s.2)
  | [] => none

/-- What follows a cut is shorter than the text that was cut. -/
theorem length_lt_of_splitOnce {p : Char → Bool} {t : Text} {s : Text × Text}
    (h : splitOnce p t = some s) : s.2.length < t.length := by
  induction t generalizing s with
  | nil => simp [splitOnce] at h
  | cons c cs ih =>
    rw [splitOnce] at h
    split at h
    · cases h
      simp
    · obtain ⟨u, hu, rfl⟩ := Option.map_eq_some_iff.1 h
      simpa using Nat.lt_succ_of_lt (ih hu)

/-- Reading a set consumes text. -/
theorem length_lt_of_charSet? {t rest : Text} {token : Token}
    (h : charSet? t = some (token, rest)) : rest.length < t.length := by
  unfold charSet? at h
  split at h
  · obtain ⟨s, hs, e⟩ := Option.map_eq_some_iff.1 h
    cases e
    simpa using Nat.lt_succ_of_lt (Nat.lt_succ_of_lt (length_lt_of_splitOnce hs))
  · simp at h
  · obtain ⟨s, hs, e⟩ := Option.map_eq_some_iff.1 h
    cases e
    simpa using Nat.lt_succ_of_lt (length_lt_of_splitOnce hs)
  · simp at h

/-- Reads the rest of a pattern after `position` characters, the last of which is `before`. -/
def tokensFrom (position : Nat) (before : Char) : Text → Except Fault (List Token)
  | [] => .ok []
  | '?' :: rest => (tokensFrom (position + 1) '?' rest).map (.anyChar :: ·)
  | '*' :: '*' :: '*' :: _ => .error ⟨position + 2, .badStars⟩
  | '*' :: '*' :: rest =>
    if before ≠ '/' then .error ⟨position - 1, .badDirectories⟩
    else match rest with
      | [] => .ok [.anyDirectories]
      | '/' :: rest => (tokensFrom (position + 3) '/' rest).map (.anyDirectories :: ·)
      | _ => .error ⟨position + 2, .badDirectories⟩
  | '*' :: rest => (tokensFrom (position + 1) '*' rest).map (.anyRun :: ·)
  | '[' :: body =>
    match h : charSet? body with
    | none => .error ⟨position, .badRange⟩
    | some (token, rest) =>
      (tokensFrom (position + 1 + (body.length - rest.length)) ']' rest).map (token :: ·)
  | c :: rest => (tokensFrom (position + 1) c rest).map (.char c :: ·)
termination_by t => t.length
decreasing_by
  all_goals simp only [List.length_cons]
  all_goals try omega
  have := length_lt_of_charSet? h
  omega

end Glob

/-- A pattern for paths. -/
structure Glob where
  tokens : List Glob.Token
deriving DecidableEq, Repr

namespace Glob

/-- Reads a pattern. Its start counts as the start of a path component. -/
def parse (t : Text) : Except Fault Glob := (tokensFrom 0 '/' t).map Glob.mk

/-! ## Matching -/

/-- The character belongs to the span. -/
def Span.contains (c : Char) : Span → Bool
  | one a => c == a
  | range first last => first ≤ c && c ≤ last

/-- The tails of a text, the text itself first. -/
def tails : Text → List Text
  | [] => [[]]
  | c :: cs => (c :: cs) :: tails cs

/-- The tails of a text that follow a slash. -/
def componentTails : Text → List Text
  | [] => []
  | c :: cs => if c = '/' then cs :: componentTails cs else componentTails cs

/-- The tokens match the whole text. -/
def Token.matchAll : List Token → Text → Bool
  | [], t => t.isEmpty
  | .anyRun :: rest, t => (tails t).any (matchAll rest)
  | .anyDirectories :: rest, t => rest.isEmpty || (t :: componentTails t).any (matchAll rest)
  | _ :: _, [] => false
  | .char a :: rest, c :: cs => a == c && matchAll rest cs
  | .anyChar :: rest, _ :: cs => matchAll rest cs
  | .within spans :: rest, c :: cs => spans.any (·.contains c) && matchAll rest cs
  | .except spans :: rest, c :: cs => !spans.any (·.contains c) && matchAll rest cs

/-- The pattern matches the whole text. -/
def isMatch (g : Glob) (t : Text) : Bool := Token.matchAll g.tokens t

end Glob

end Bookbinder
