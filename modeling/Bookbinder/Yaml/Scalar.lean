import Bookbinder.Text.Decimal

/-!
# YAML scalars

A text is written in the plainest of four styles that reads back as the same text: as it stands, in
single quotes, in double quotes with escapes, or as a literal block. Texts that would read as a null, a
truth value or a number are quoted; texts with a line feed become literal blocks where those allow it.
-/

namespace Bookbinder.Yaml

/-! ## Character classes -/

/-- Line breaks. -/
def isBreak (c : Char) : Bool :=
  c == '\n' || c == '\r' || c.toNat == 0x85 || c.toNat == 0x2028 || c.toNat == 0x2029

/-- White space, a line break or the character zero. -/
def isSeparator (c : Char) : Bool := c == ' ' || c == '\t' || isBreak c || c.toNat == 0

/-- Characters that need no escape. -/
def isPrintable (c : Char) : Bool :=
  let n := c.toNat
  n == 0xA || (0x20 ≤ n && n ≤ 0x7E) ||
    (0xA0 ≤ n && n != 0xFEFF && n != 0xFFFE && n != 0xFFFF)

/-! ## Texts that read as something else -/

/-- A run of digits of a base that stands for a number of at most `limit`. -/
def isDigitsUpTo (base limit : Nat) (t : Text) : Bool := (natOfDigits? base t).any (· ≤ limit)

/-- The text without a sign in front. -/
def unsigned : Text → Text
  | '+' :: t | '-' :: t => t
  | t => t

/-- A zero followed by more digits, which is no number. -/
def isPaddedDigits (t : Text) : Bool :=
  match unsigned t with
  | '0' :: d :: ds => (d :: ds).all Char.isDigit
  | _ => false

/-- An integer in base sixteen, eight, two or ten that fits in 128 bits. -/
def isInteger (t : Text) : Bool :=
  let (negative, digits) := match t with
    | '-' :: r => (true, r)
    | '+' :: r => (false, r)
    | r => (false, r)
  let limit := if negative then Nat.pow 2 127 else Nat.pow 2 128 - 1
  (match digits with
    | '0' :: 'x' :: r => isDigitsUpTo 16 limit r
    | '0' :: 'o' :: r => isDigitsUpTo 8 limit r
    | '0' :: 'b' :: r => isDigitsUpTo 2 limit r
    | _ => false) ||
  (!isPaddedDigits t && isDigitsUpTo 10 limit digits)

/-- The exponent of a number, if the whole text is one, and its sign. -/
def exponent? : Text → Option (Bool × Nat)
  | [] => some (false, 0)
  | e :: rest =>
    if e = 'e' ∨ e = 'E' then (natOfDigits? 10 (unsigned rest)).map (rest.head? == some '-', ·)
    else none

/-- A number without sign: digits, perhaps a point among them, perhaps an exponent. -/
def decimal? (t : Text) : Option Decimal :=
  let (whole, rest) := t.span Char.isDigit
  let (part, rest) := match rest with
    | '.' :: r => r.span Char.isDigit
    | r => ([], r)
  if whole.isEmpty && part.isEmpty then none
  else (exponent? rest).map fun (negative, exponent) => ⟨whole ++ part, part.length, negative, exponent⟩

/-- A decimal number with a finite value, or one of the special floating-point words. -/
def isFloat (t : Text) : Bool :=
  let bare := match t with
    | '+' :: r => r
    | r => r
  if t.head? == some '+' && (bare.head? == some '+' || bare.head? == some '-') then false
  else if [".inf", ".Inf", ".INF"].any (·.toList == bare) then true
  else if ["-.inf", "-.Inf", "-.INF", ".nan", ".NaN", ".NAN"].any (·.toList == t) then true
  else
    let body := match bare with
      | '-' :: r => r
      | r => r
    (decimal? body).any Decimal.isFinite

/-- Words that read as a null or a truth value. -/
def reservedWords : List String :=
  ["", "null", "Null", "NULL", "~", "true", "True", "TRUE", "false", "False", "FALSE"]

/-- The plain text would not be read as a text, or might not be. -/
def readsAsOther (t : Text) : Bool :=
  reservedWords.any (·.toList == t) || isInteger t || isPaddedDigits t || isFloat t

/-! ## What the styles allow -/

/-- Some neighbours in the text satisfy `p` and `q`. -/
def hasNeighbours (p q : Char → Bool) : Text → Bool
  | a :: b :: rest => (p a && q b) || hasNeighbours p q (b :: rest)
  | _ => false

/-- A blank space before a line break, or a character that needs an escape: only double quotes hold
these. -/
def needsEscape (t : Text) : Bool :=
  hasNeighbours (· == ' ') isBreak t || t.any (!isPrintable ·)

/-- The characters that open something else than a plain text. -/
def indicators : List Char :=
  ['#', ',', '[', ']', '{', '}', '&', '*', '!', '|', '>', '\'', '"', '%', '@', '`']

/-- After `previous`, the rest of the text holds a colon or hash that ends a plain text. -/
def hasInnerIndicator (previous : Char) : Text → Bool
  | [] => false
  | c :: cs =>
    (c == ':' && cs.head?.all isSeparator) || (c == '#' && isSeparator previous) ||
      hasInnerIndicator c cs

/-- The text holds a mark that a plain text must not hold. -/
def hasIndicator (t : Text) : Bool :=
  match t with
  | [] => false
  | c :: cs =>
    startsWith "---" t || startsWith "..." t || indicators.contains c ||
      ((c == '?' || c == ':' || c == '-') && cs.head?.all isSeparator) ||
      hasInnerIndicator c cs

/-- A space or break at either end. -/
def hasLooseEnds (t : Text) : Bool :=
  let loose (c : Char) : Bool := c == ' ' || isBreak c
  t.head?.any loose || t.getLast?.any loose

/-- The text may stand as it is. -/
def allowsPlain (t : Text) : Bool :=
  !(needsEscape t || hasLooseEnds t || t.any isBreak || hasIndicator t)

/-- The text may stand in single quotes. -/
def allowsSingle (t : Text) : Bool := !(needsEscape t || hasNeighbours isBreak (· == ' ') t)

/-- The text may stand in a literal block. -/
def allowsLiteral (t : Text) : Bool := !(needsEscape t || t.isEmpty || t.getLast? == some ' ')

/-- The ways to write a text. -/
inductive Style where
  | plain
  | single
  | double
  | literal
deriving DecidableEq, Repr

/-- The style a text is written in. -/
def style (t : Text) : Style :=
  if t.contains '\n' then if allowsLiteral t then .literal else .double
  else if !readsAsOther t && allowsPlain t then .plain
  else if allowsSingle t then .single
  else .double

/-! ## Writing -/

/-- The text inside single quotes; after a break the next line is indented. -/
def singleBody (indent : Nat) (afterBreak : Bool) : Text → Text
  | [] => if afterBreak then List.replicate indent ' ' else []
  | c :: cs =>
    if isBreak c then c :: singleBody indent true cs
    else if c = ' ' then c :: singleBody indent afterBreak cs
    else (if afterBreak then List.replicate indent ' ' else []) ++
      (if c = '\'' then ['\'', '\''] else [c]) ++ singleBody indent false cs

/-- A number in upper case hexadecimal digits, at least `width` of them. -/
def hex (width n : Nat) : Text :=
  let digits := (Nat.toDigits 16 n).map Char.toUpper
  List.replicate (width - digits.length) '0' ++ digits

/-- The letters of the short escapes. -/
def shortEscapes : List (Nat × Char) :=
  [(0x00, '0'), (0x07, 'a'), (0x08, 'b'), (0x09, 't'), (0x0A, 'n'), (0x0B, 'v'), (0x0C, 'f'),
   (0x0D, 'r'), (0x1B, 'e'), (0x22, '"'), (0x5C, '\\'), (0x85, 'N'), (0xA0, '_'), (0x2028, 'L'),
   (0x2029, 'P')]

/-- How a character is written inside double quotes. -/
def escapeChar (c : Char) : Text :=
  if isPrintable c && !isBreak c && c != '"' && c != '\\' then [c]
  else match shortEscapes.lookup c.toNat with
    | some e => ['\\', e]
    | none =>
      if c.toNat ≤ 0xFF then '\\' :: 'x' :: hex 2 c.toNat
      else if c.toNat ≤ 0xFFFF then '\\' :: 'u' :: hex 4 c.toNat
      else '\\' :: 'U' :: hex 8 c.toNat

/-- The lines of a literal block, each but the empty ones indented. -/
def literalBody (indent : Nat) (afterBreak : Bool) : Text → Text
  | [] => []
  | c :: cs =>
    if isBreak c then c :: literalBody indent true cs
    else (if afterBreak then List.replicate indent ' ' else []) ++ c :: literalBody indent false cs

/-- What follows the bar of a literal block: a width if the text starts with white space, and a sign for
the line breaks at its end. -/
def literalHints (t : Text) : Text :=
  (if t.head?.any fun c => c == ' ' || isBreak c then ['2'] else []) ++
    match t.reverse with
    | [] => ['-']
    | [c] => if isBreak c then ['+'] else ['-']
    | c :: d :: _ => if !isBreak c then ['-'] else if isBreak d then ['+'] else []

/-- A text as a scalar whose further lines are indented by `indent`, with the line break that ends it. -/
def scalar (indent : Nat) (t : Text) : Text :=
  match style t with
  | .plain => t ++ ['\n']
  | .single => '\'' :: singleBody indent false t ++ ['\'', '\n']
  | .double => '"' :: t.flatMap escapeChar ++ ['"', '\n']
  | .literal =>
    '|' :: literalHints t ++ '\n' :: literalBody indent true t ++
      if t.getLast?.any isBreak then [] else ['\n']

end Bookbinder.Yaml
