import Bookbinder.Json.Basic

/-!
# Writing JSON

Two layouts: `Json.compact` on one line, and `Json.pretty` with a line per item and two spaces per
level. Both write strings with `quote`: the quotation mark, the backslash and the control characters
are escaped, every other character stands for itself.
-/

namespace Bookbinder.Json

/-- How a character is written inside a string. -/
def escapeChar (c : Char) : Text :=
  if c = '"' then "\\\""
  else if c = '\\' then "\\\\"
  else if c = '\n' then "\\n"
  else if c = '\r' then "\\r"
  else if c = '\t' then "\\t"
  else if c = '\x08' then "\\b"
  else if c = '\x0c' then "\\f"
  else if c.toNat < 0x20 then
    "\\u00".toList ++ [Nat.digitChar (c.toNat / 16), Nat.digitChar (c.toNat % 16)]
  else [c]

/-- A text as a JSON string. -/
def quote (t : Text) : Text := '"' :: t.flatMap escapeChar ++ ['"']

/-- How a value without parts is written. -/
def atom : Json → Text
  | null | arr _ | obj _ | loneSurrogate => "null"
  | bool true => "true"
  | bool false => "false"
  | nat n => decimal n
  | number literal => literal
  | str t => quote t

mutual

/-- One line, no blanks. -/
def compact : Json → Text
  | arr items => '[' :: compactItems items ++ [']']
  | obj fields => '{' :: compactFields fields ++ ['}']
  | j => atom j

def compactItems : List Json → Text
  | [] => []
  | [j] => compact j
  | j :: js => compact j ++ ',' :: compactItems js

def compactFields : List (Text × Json) → Text
  | [] => []
  | [(k, j)] => quote k ++ ':' :: compact j
  | (k, j) :: fs => quote k ++ ':' :: compact j ++ ',' :: compactFields fs

end

/-- A line break and the indentation of a level. -/
def newline (level : Nat) : Text := '\n' :: List.replicate (2 * level) ' '

mutual

/-- A line per item, items of nested values further in. -/
def prettyAt (level : Nat) : Json → Text
  | arr [] => "[]"
  | arr items => '[' :: prettyItems (level + 1) items ++ newline level ++ [']']
  | obj [] => ['{', '}']
  | obj fields => '{' :: prettyFields (level + 1) fields ++ newline level ++ ['}']
  | j => atom j

def prettyItems (level : Nat) : List Json → Text
  | [] => []
  | [j] => newline level ++ prettyAt level j
  | j :: js => newline level ++ prettyAt level j ++ ',' :: prettyItems level js

def prettyFields (level : Nat) : List (Text × Json) → Text
  | [] => []
  | [(k, j)] => newline level ++ quote k ++ ": ".toList ++ prettyAt level j
  | (k, j) :: fs =>
    newline level ++ quote k ++ ": ".toList ++ prettyAt level j ++ ',' :: prettyFields level fs

end

/-- The value over several lines, two spaces per level. -/
def pretty (j : Json) : Text := prettyAt 0 j

end Bookbinder.Json
