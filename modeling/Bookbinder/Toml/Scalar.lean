import Bookbinder.Text.Decimal
import Bookbinder.Toml.Basic

/-!
# TOML strings, numbers and dates

Readers of the values without parts. Each takes the text and answers the value with the text that
follows it, or nothing if the value is not well formed.
-/

namespace Bookbinder.Toml

/-- A space or a tab. -/
def isSpace (c : Char) : Bool := c == ' ' || c == '\t'

/-- Drops spaces and tabs. -/
def skipSpace (t : Text) : Text := t.dropWhile isSpace

/-- Control characters other than the tab, which stand in no comment and no string. -/
def isControl (c : Char) : Bool := (c.toNat < 0x20 && c != '\t') || c.toNat == 0x7F

/-- What follows a line end. -/
def lineEnd? : Text → Option Text
  | '\n' :: t => some t
  | '\r' :: '\n' :: t => some t
  | _ => none

/-! ## Strings -/

/-- A character given by its number in hexadecimal digits. -/
def codePoint? (width : Nat) (t : Text) : Option (Char × Text) := do
  guard ((t.take width).length = width)
  let n ← natOfDigits? 16 (t.take width)
  guard (n.isValidChar)
  return (Char.ofNat n, t.drop width)

/-- The escape after a backslash. -/
def escape? : Text → Option (Char × Text)
  | 'b' :: t => some ('\x08', t)
  | 't' :: t => some ('\t', t)
  | 'n' :: t => some ('\n', t)
  | 'f' :: t => some ('\x0c', t)
  | 'r' :: t => some ('\r', t)
  | '"' :: t => some ('"', t)
  | '\\' :: t => some ('\\', t)
  | 'u' :: t => codePoint? 4 t
  | 'U' :: t => codePoint? 8 t
  | _ => none

/-- The inside of a string on one line, up to its quotation mark. -/
def basicBody? : Nat → Text → Option (Text × Text)
  | 0, _ => none
  | _ + 1, [] => none
  | _ + 1, '"' :: t => some ([], t)
  | n + 1, '\\' :: t => do
    let (c, t) ← escape? t
    let (cs, t) ← basicBody? n t
    return (c :: cs, t)
  | n + 1, c :: t => do
    guard !(isControl c)
    let (cs, t) ← basicBody? n t
    return (c :: cs, t)

/-- The inside of a literal string on one line, up to its apostrophe. -/
def literalBody? : Text → Option (Text × Text)
  | [] => none
  | c :: t =>
    if c = '\'' then some ([], t)
    else if isControl c then none
    else (literalBody? t).map fun r => (c :: r.1, r.2)

/-- The closing marks of a string over several lines; up to two marks before them are part of the
string. -/
def closeLong? (mark : Char) (t : Text) : Option (Text × Text) :=
  let marks := t.takeWhile (· == mark)
  if marks.length < 3 then none
  else
    let inside := min (marks.length - 3) 2
    some (List.replicate inside mark, t.drop (inside + 3))

/-- After a backslash at the end of a line: the text without the white space up to the next visible
character. -/
def foldLine? (t : Text) : Option Text :=
  (lineEnd? (skipSpace t)).map fun t => t.dropWhile fun c => isSpace c || c == '\n' || c == '\r'

/-- The inside of a string over several lines. -/
def longBasicBody? : Nat → Text → Option (Text × Text)
  | 0, _ => none
  | n + 1, t =>
    match closeLong? '"' t with
    | some r => some r
    | none =>
      match lineEnd? t with
      | some t => (longBasicBody? n t).map fun r => ('\n' :: r.1, r.2)
      | none =>
        match t with
        | [] => none
        | '\\' :: t =>
          match foldLine? t with
          | some t => longBasicBody? n t
          | none => do
            let (c, t) ← escape? t
            let (cs, t) ← longBasicBody? n t
            return (c :: cs, t)
        | c :: t =>
          if isControl c then none else (longBasicBody? n t).map fun r => (c :: r.1, r.2)

/-- The inside of a literal string over several lines. -/
def longLiteralBody? : Nat → Text → Option (Text × Text)
  | 0, _ => none
  | n + 1, t =>
    match closeLong? '\'' t with
    | some r => some r
    | none =>
      match lineEnd? t with
      | some t => (longLiteralBody? n t).map fun r => ('\n' :: r.1, r.2)
      | none =>
        match t with
        | [] => none
        | c :: t =>
          if isControl c then none else (longLiteralBody? n t).map fun r => (c :: r.1, r.2)

/-- The text without a line end right at its start. -/
def dropLineEnd (t : Text) : Text := (lineEnd? t).getD t

/-- A string of any of the four kinds. -/
def string? : Text → Option (Text × Text)
  | '"' :: '"' :: '"' :: t => longBasicBody? (t.length + 1) (dropLineEnd t)
  | '\'' :: '\'' :: '\'' :: t => longLiteralBody? (t.length + 1) (dropLineEnd t)
  | '"' :: t => basicBody? (t.length + 1) t
  | '\'' :: t => literalBody? t
  | _ => none

/-! ## Numbers -/

/-- Digits of a base with single underscores between them, without the underscores. -/
def digits? (base : Nat) (t : Text) : Option (Text × Text) :=
  let isDigit (c : Char) : Bool := (digitValue? c).any (· < base)
  let (run, rest) := t.span fun c => isDigit c || c == '_'
  if (splitWhen (· == '_') run).all (!·.isEmpty) then some (run.filter (· != '_'), rest) else none

/-- A sign, and whether it is negative. -/
def sign : Text → Bool × Text
  | '-' :: t => (true, t)
  | '+' :: t => (false, t)
  | t => (false, t)

/-- Decimal digits of an integer: a zero stands alone. -/
def wholeDigits? : Text → Option (Text × Text)
  | '0' :: t => some (['0'], t)
  | t => digits? 10 t

/-- An integer within 64 bits. -/
def inRange? (n : Int) : Option Toml :=
  if -9223372036854775808 ≤ n ∧ n ≤ 9223372036854775807 then some (integer n) else none

/-- An integer of a base given by its first two characters. -/
def basedInteger? (base : Nat) (t : Text) : Option (Toml × Text) := do
  let (ds, t) ← digits? base t
  let n ← natOfDigits? base ds
  return (← inRange? n, t)

/-- The part of a float behind its integer part, if there is one: digits behind the point, and the
exponent. -/
def floatTail? (t : Text) : Option (Option (Text × Bool × Nat) × Text) := do
  let (part, t) ← match t with
    | '.' :: t => (digits? 10 t).map fun r => (some r.1, r.2)
    | t => some (none, t)
  match t with
  | e :: r =>
    if e = 'e' ∨ e = 'E' then
      let (negative, r) := sign r
      let (ds, r) ← digits? 10 r
      return (some (part.getD [], negative, natOfDigits ds), r)
    else return (part.map (·, false, 0), t)
  | [] => return (part.map (·, false, 0), [])

/-- An integer or a float with decimal digits. -/
def decimalNumber? (t : Text) : Option (Toml × Text) := do
  let (negative, t) := sign t
  let (whole, t) ← wholeDigits? t
  match ← floatTail? t with
  | (some (part, negativeExponent, exponent), t) =>
    guard (Decimal.isFinite ⟨whole ++ part, part.length, negativeExponent, exponent⟩)
    return (float, t)
  | (none, t) =>
    let n : Int := natOfDigits whole
    return (← inRange? (if negative then -n else n), t)

/-- An integer or a float. -/
def number? (t : Text) : Option (Toml × Text) :=
  match t with
  | '0' :: 'x' :: r => basedInteger? 16 r
  | '0' :: 'o' :: r => basedInteger? 8 r
  | '0' :: 'b' :: r => basedInteger? 2 r
  | _ =>
    let bare := (sign t).2
    match (stripHead? "inf" bare).or (stripHead? "nan" bare) with
    | some rest => some (float, rest)
    | none => decimalNumber? t

/-! ## Dates and times -/

/-- A number of exactly `width` decimal digits. -/
def fixed? (width : Nat) (t : Text) : Option (Nat × Text) := do
  guard ((t.take width).length = width)
  let n ← natOfDigits? 10 (t.take width)
  return (n, t.drop width)

/-- The character and the text behind it. -/
def char? (c : Char) (t : Text) : Option Text := stripHead? [c] t

/-- The number of days in a month. -/
def daysIn (year month : Nat) : Nat :=
  if month = 2 then
    if year % 4 = 0 ∧ (year % 100 ≠ 0 ∨ year % 400 = 0) then 29 else 28
  else if [4, 6, 9, 11].contains month then 30
  else 31

/-- A calendar date. -/
def date? (t : Text) : Option Text := do
  let (year, t) ← fixed? 4 t
  let t ← char? '-' t
  let (month, t) ← fixed? 2 t
  guard (1 ≤ month ∧ month ≤ 12)
  let t ← char? '-' t
  let (day, t) ← fixed? 2 t
  guard (1 ≤ day ∧ day ≤ daysIn year month)
  return t

/-- Hours and minutes. -/
def clock? (t : Text) : Option Text := do
  let (hour, t) ← fixed? 2 t
  guard (hour ≤ 23)
  let t ← char? ':' t
  let (minute, t) ← fixed? 2 t
  guard (minute ≤ 59)
  return t

/-- A time of day with seconds. -/
def time? (t : Text) : Option Text := do
  let t ← clock? t
  let t ← char? ':' t
  let (second, t) ← fixed? 2 t
  guard (second ≤ 60)
  match t with
  | '.' :: r =>
    guard (r.head?.any Char.isDigit)
    return r.dropWhile Char.isDigit
  | _ => return t

/-- An offset from universal time, if one is given. -/
def offset? : Text → Option Text
  | 'Z' :: t | 'z' :: t => some t
  | '+' :: t | '-' :: t => clock? t
  | t => some t

/-- A date, a time, or a date with a time. -/
def dateTime? (t : Text) : Option Text :=
  match date? t with
  | none => time? t
  | some rest =>
    match rest with
    | c :: r =>
      if c = 'T' ∨ c = 't' ∨ c = ' ' then
        match time? r with
        | some r => offset? r
        | none => some rest
      else some rest
    | [] => some []

/-- The text starts like a date or a time: four digits and a dash, or two digits and a colon. -/
def looksLikeDate (t : Text) : Bool :=
  let (ds, rest) := t.span Char.isDigit
  (ds.length == 4 && rest.head? == some '-') || (ds.length == 2 && rest.head? == some ':')

end Bookbinder.Toml
