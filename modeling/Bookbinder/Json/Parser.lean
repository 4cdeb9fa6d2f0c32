import Bookbinder.Json.Basic
import Bookbinder.Text.Decimal

/-!
# Reading JSON

`Json.parse?` accepts exactly the JSON grammar: one value with blanks around it. Strings hold no raw
control character, and an escaped surrogate pair stands for one character; a string with a surrogate
that has no partner is read as `loneSurrogate`.

The readers take a *fuel* argument that bounds the nesting and the number of items; twice the length of
the text is always enough, since every second step consumes a character.
-/

namespace Bookbinder.Json

/-- White space between tokens. -/
def isSpace (c : Char) : Bool := c == ' ' || c == '\t' || c == '\n' || c == '\r'

/-- Drops the white space in front of a token. -/
def skipSpace (t : Text) : Text := t.dropWhile isSpace

/-! ## Strings -/

/-- Reads four hexadecimal digits. -/
def hex4? (t : Text) : Option (Nat × Text) :=
  if (t.take 4).length = 4 then (natOfDigits? 16 (t.take 4)).map (·, t.drop 4) else none

/-- A piece of a string: a character, or half of a surrogate pair. -/
inductive Unit16 where
  | char (c : Char)
  | high (n : Nat)
  | low (n : Nat)

/-- The piece a code unit stands for. -/
def Unit16.ofNat (n : Nat) : Unit16 :=
  if 0xD800 ≤ n ∧ n < 0xDC00 then high n
  else if 0xDC00 ≤ n ∧ n < 0xE000 then low n
  else char (Char.ofNat n)

/-- Reads the escape after a backslash. -/
def escape? : Text → Option (Unit16 × Text)
  | '"' :: rest => some (.char '"', rest)
  | '\\' :: rest => some (.char '\\', rest)
  | '/' :: rest => some (.char '/', rest)
  | 'b' :: rest => some (.char '\x08', rest)
  | 'f' :: rest => some (.char '\x0c', rest)
  | 'n' :: rest => some (.char '\n', rest)
  | 'r' :: rest => some (.char '\r', rest)
  | 't' :: rest => some (.char '\t', rest)
  | 'u' :: rest => (hex4? rest).map fun r => (.ofNat r.1, r.2)
  | _ => none

/-- Reads the pieces of a string up to its closing quotation mark. -/
def pieces? : Nat → Text → Option (List Unit16 × Text)
  | 0, _ => none
  | _ + 1, [] => none
  | _ + 1, '"' :: rest => some ([], rest)
  | n + 1, '\\' :: rest => do
    let (piece, rest) ← escape? rest
    let (more, rest) ← pieces? n rest
    return (piece :: more, rest)
  | n + 1, c :: rest => do
    guard (0x20 ≤ c.toNat)
    let (more, rest) ← pieces? n rest
    return (.char c :: more, rest)

/-- The text of the pieces, if every surrogate has its partner. -/
def text? : List Unit16 → Option Text
  | [] => some []
  | .char c :: rest => (text? rest).map (c :: ·)
  | .high h :: .low l :: rest =>
    (text? rest).map (Char.ofNat (0x10000 + (h - 0xD800) * 0x400 + (l - 0xDC00)) :: ·)
  | _ => none

/-! ## Numbers -/

/-- A run of decimal digits. -/
def digits (t : Text) : Text × Text := t.span Char.isDigit

/-- The integer part of a number: no zero in front of another digit. -/
def integer? (t : Text) : Option (Text × Text) :=
  match digits t with
  | ([], _) => none
  | ('0' :: _ :: _, _) => none
  | r => some r

/-- An optional fraction. -/
def fraction? : Text → Option (Text × Text)
  | '.' :: t =>
    match digits t with
    | ([], _) => none
    | (ds, rest) => some ('.' :: ds, rest)
  | t => some ([], t)

/-- An optional sign. -/
def sign : Text → Text × Text
  | '+' :: t => (['+'], t)
  | '-' :: t => (['-'], t)
  | t => ([], t)

/-- An optional exponent. -/
def exponent? (t : Text) : Option (Text × Text) :=
  match t with
  | e :: rest =>
    if e = 'e' ∨ e = 'E' then
      let (s, rest) := sign rest
      match digits rest with
      | ([], _) => none
      | (ds, rest) => some (e :: s ++ ds, rest)
    else some ([], t)
  | [] => some ([], [])

/-- Reads a number. -/
def number? (t : Text) : Option (Json × Text) := do
  let (minus, t) := match t with
    | '-' :: t => (['-'], t)
    | t => ([], t)
  let (whole, t) ← integer? t
  let (frac, t) ← fraction? t
  let (exp, t) ← exponent? t
  return (if minus.isEmpty && frac.isEmpty && exp.isEmpty then nat (natOfDigits whole)
    else number (minus ++ whole ++ frac ++ exp), t)

/-! ## Values -/

mutual

/-- Reads a value that starts right here. -/
def value? : Nat → Text → Option (Json × Text)
  | 0, _ => none
  | n + 1, t =>
    match t with
    | '"' :: rest =>
      (pieces? (rest.length + 1) rest).map fun r => (((text? r.1).map str).getD loneSurrogate, r.2)
    | '[' :: rest =>
      match skipSpace rest with
      | ']' :: rest => some (arr [], rest)
      | rest => (items? n rest).map fun r => (arr r.1, r.2)
    | '{' :: rest =>
      match skipSpace rest with
      | '}' :: rest => some (obj [], rest)
      | rest => (fields? n rest).map fun r => (obj r.1, r.2)
    | 'n' :: 'u' :: 'l' :: 'l' :: rest => some (null, rest)
    | 't' :: 'r' :: 'u' :: 'e' :: rest => some (bool true, rest)
    | 'f' :: 'a' :: 'l' :: 's' :: 'e' :: rest => some (bool false, rest)
    | t => number? t

/-- Reads items up to the closing bracket; there is at least one. -/
def items? : Nat → Text → Option (List Json × Text)
  | 0, _ => none
  | n + 1, t => do
    let (j, rest) ← value? n t
    match skipSpace rest with
    | ']' :: rest => return ([j], rest)
    | ',' :: rest =>
      let (js, rest) ← items? n (skipSpace rest)
      return (j :: js, rest)
    | _ => none

/-- Reads fields up to the closing brace; there is at least one. -/
def fields? : Nat → Text → Option (List (Text × Json) × Text)
  | 0, _ => none
  | n + 1, t => do
    let '"' :: rest := t | none
    let (name, rest) ← pieces? (rest.length + 1) rest
    let name ← text? name
    let ':' :: rest := skipSpace rest | none
    let (j, rest) ← value? n (skipSpace rest)
    match skipSpace rest with
    | '}' :: rest => return ([(name, j)], rest)
    | ',' :: rest =>
      let (fs, rest) ← fields? n (skipSpace rest)
      return ((name, j) :: fs, rest)
    | _ => none

end

/-- Reads a text that holds one value and nothing else. -/
def parse? (t : Text) : Option Json := do
  let (j, rest) ← value? (2 * t.length + 2) (skipSpace t)
  guard (skipSpace rest).isEmpty
  return j

end Bookbinder.Json
