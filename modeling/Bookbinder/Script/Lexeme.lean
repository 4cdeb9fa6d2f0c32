import Bookbinder.Script.Dialect

/-!
# Lexemes of a script

A script is cut into lexemes whose texts, put together again, give the script back. What a slash, an
angle bracket or a brace means depends on what stands before it, so the scanner's `State` keeps the open
brackets (`Frame`) and the kind of the last significant lexeme (`Last`).

This module has the lexemes, the state and the recognisers of the single lexemes; each recogniser
answers the number of characters its lexeme takes.
-/

namespace Bookbinder

/-- What a lexeme is. -/
inductive LexemeKind where
  /-- A comment: a block with its closing mark, or the rest of a line. -/
  | comment
  /-- What is passed over like a comment but is no comment node of the grammar. -/
  | remark
  | blank
  | word
  | literal
  | markupText
  | punctuation
deriving DecidableEq, Repr

/-- A stretch of a script. -/
structure Lexeme where
  kind : LexemeKind
  text : Text
deriving DecidableEq, Repr

/-- An open bracket, or a stretch with reading rules of its own. -/
inductive Frame where
  /-- A parenthesis; a `control` one holds the condition of a statement. -/
  | paren (control : Bool)
  | bracket
  /-- A brace; a `block` one holds statements or members. -/
  | brace (block : Bool)
  /-- From the word `function` or `class` of an expression to the body. -/
  | valueHead
  /-- The body of a function or class that is a value. -/
  | valueBody
  | template
  /-- The `${ }` of a template. -/
  | substitution
  /-- An opening tag, with the number of its open type argument lists. -/
  | tag (angles : Nat)
  /-- The content between an opening and a closing tag. -/
  | children
  | closingTag
  /-- The `{ }` of a tag or of element content. -/
  | container
  /-- From the word `interface` to its body, with the number of open type lists. -/
  | interfaceHead (angles : Nat)
  /-- The body of an interface, with the number of open type lists. -/
  | interfaceBody (angles : Nat)
deriving DecidableEq, Repr

/-- What the last significant lexeme leads to. -/
inductive Last where
  /-- A statement or member may start. -/
  | statement
  /-- A value has just ended. -/
  | operand
  /-- A value has to follow. -/
  | operator
  /-- A property name has to follow. -/
  | dot
  /-- A condition in parentheses has to follow. -/
  | control
  /-- A block or a statement has to follow. -/
  | blockWord
  | arrow
  | colon
  /-- The value or the declaration of a default export has to follow. -/
  | defaultWord
  /-- A closing angle bracket or a greater sign. -/
  | angle
deriving DecidableEq, Repr

/-- A value may start here, so a slash opens a regular expression and an angle bracket an element. -/
def Last.expectsValue : Last → Bool
  | operand | dot => false
  | _ => true

/-- Where the scanner stands. -/
structure ScanState where
  stack : List Frame := []
  last : Last := .statement
  /-- A line has ended since the last significant lexeme. -/
  lineBreak : Bool := false
deriving DecidableEq, Repr

namespace Script

/-! ## Character classes -/

/-- White space between lexemes, the invisible marks U+200B, U+2060 and U+FEFF among it. -/
def isSpace (c : Char) : Bool :=
  isBlank c || c.toNat == 0x200B || c.toNat == 0x2060 || c.toNat == 0xFEFF

/-- A character of names and numbers. -/
def isNameChar (c : Char) : Bool :=
  isWordChar c || c == '$' || c == '#' || c == '\\' || (0x80 ≤ c.toNat && !isSpace c)

/-- The end of a line for a comment that runs to it. -/
def isLineEnd (c : Char) : Bool := c == '\n' || c == '\r' || c.toNat == 0x2028 || c.toNat == 0x2029

/-- The end of a line for a page comment. -/
def endsPageComment (c : Char) : Bool := c == '\n' || c.toNat == 0x2028 || c.toNat == 0x2029

/-! ## Lengths of lexemes -/

/-- The number of leading characters that satisfy `p`. -/
def runLength (p : Char → Bool) (t : Text) : Nat := (t.takeWhile p).length

/-- The length up to and including the first `*/`. -/
def blockEnd? : Text → Option Nat
  | [] => none
  | '*' :: '/' :: _ => some 2
  | _ :: cs => (blockEnd? cs).map (· + 1)

/-- The length of a string after its opening quotation mark; an unfinished one ends with its line. -/
def stringEnd (quote : Char) : Text → Nat
  | [] => 0
  | [_] => 1
  | c :: d :: cs =>
    if c = '\\' then 2 + stringEnd quote cs
    else if c = quote then 1
    else if c = '\n' ∨ c = '\r' then 0
    else 1 + stringEnd quote (d :: cs)

/-- The length of a quoted attribute after its opening quotation mark. -/
def attributeEnd (quote : Char) : Text → Nat
  | [] => 0
  | c :: cs => if c = quote then 1 else 1 + attributeEnd quote cs

/-- The length of a regular expression after its opening slash, flags left out. A slash inside a
character class does not close it. -/
def regexEnd? (inClass : Bool) : Text → Option Nat
  | [] => none
  | [c] => if c = '/' ∧ ¬inClass then some 1 else none
  | c :: d :: cs =>
    if c = '\n' then none
    else if c = '\\' then
      if d = '\n' then none else (regexEnd? inClass cs).map (· + 2)
    else if c = '/' ∧ ¬inClass then some 1
    else (regexEnd? (if c = '[' then true else if c = ']' then false else inClass) (d :: cs)).map
      (· + 1)

/-- The length of a stretch of template text: up to a backquote or a substitution. -/
def templateEnd : Text → Nat
  | [] => 0
  | [c] => if c = '`' then 0 else 1
  | c :: d :: cs =>
    if c = '\\' then 2 + templateEnd cs
    else if c = '`' ∨ (c = '$' ∧ d = '{') then 0
    else 1 + templateEnd (d :: cs)

/-- The length of a comment, if one starts here. The comment is a block or runs to the end of the
line. -/
def comment? : Text → Option Nat
  | '/' :: '*' :: cs => some (((blockEnd? cs).getD cs.length) + 2)
  | '/' :: '/' :: cs => some (runLength (!isLineEnd ·) cs + 2)
  | _ => none

/-- A block comment has a closing mark, and the first one ends it. -/
def isClosed : Text → Bool
  | '/' :: '*' :: rest => blockEnd? rest == some rest.length
  | _ => true

/-- The text without the white space and comments at its start, and whether they held a line feed. The
fuel bounds the number of comments passed. -/
def skipTrivia : Nat → Text → Text × Bool
  | 0, t => (t, false)
  | n + 1, t =>
    let spaces := t.takeWhile isSpace
    let rest := t.dropWhile isSpace
    match comment? rest with
    | none => (rest, spaces.contains '\n')
    | some len =>
      let (after, broken) := skipTrivia n (rest.drop len)
      (after, broken || spaces.contains '\n' || (rest.take len).contains '\n')

end Script

end Bookbinder
