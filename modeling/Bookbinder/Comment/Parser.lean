import Bookbinder.Comment.Basic

/-!
# Reading documentation blocks

`Comment.parse` reads the raw text of a block in three steps:

* `cleanLines` takes off the delimiters and the gutter of asterisks;
* `cutBlocks` cuts the lines at each line that starts with `@`: the lines before the first one are the
  description, each later stretch is one `Block` of a tag name and a value;
* `Comment.push` files each block under parameters, results, errors, link or free tags.
-/

namespace Bookbinder

/-- The lines of a block without delimiters, gutter and outer blanks. -/
def cleanLines (raw : Text) : List Text :=
  (lines (stripTail "*/" (stripHead "/**" (trim raw)))).map fun line =>
    trim (stripHead "*" (trim line))

/-! ## Blocks -/

/-- A tag line together with the lines that continue it. -/
structure Block where
  tag : Text
  value : Text
deriving DecidableEq, Repr

/-- The block of a tag line (without its `@`) and the lines below it: blank lines are left out and the
others joined by single spaces. -/
def Block.ofLines (head : Text) (body : List Text) : Block :=
  let (tag, value) := splitWord head
  ⟨tag, joinWith [' '] ((trim value :: body).filter (!·.isEmpty))⟩

/-- The lines before the first tag line, and the blocks from there on. -/
def cutBlocks : List Text → List Text × List Block
  | [] => ([], [])
  | line :: rest =>
    let (body, blocks) := cutBlocks rest
    match line with
    | '@' :: head => ([], Block.ofLines head body :: blocks)
    | _ => (line :: body, blocks)

/-! ## Parts of a value -/

/-- The text up to the brace that closes `depth` open braces and one more, and the text after it. -/
def closeBrace (depth : Nat) : Text → Option (Text × Text)
  | [] => none
  | c :: cs =>
    if c = '{' then (closeBrace (depth + 1) cs).map fun r => (c :: r.1, r.2)
    else if c = '}' then
      match depth with
      | 0 => some ([], cs)
      | d + 1 => (closeBrace d cs).map fun r => (c :: r.1, r.2)
    else (closeBrace depth cs).map fun r => (c :: r.1, r.2)

/-- Nothing for an empty text. -/
def nonEmpty? (t : Text) : Option Text := if t.isEmpty then none else some t

/-- Takes a leading `{type}` off a value. A value without one, or with braces that never balance, is
left whole. -/
def splitType (value : Text) : Option Text × Text :=
  let v := trimStart value
  match v with
  | '{' :: body =>
    match closeBrace 0 body with
    | some (inner, rest) => (nonEmpty? (trim inner), trimStart rest)
    | none => (none, v)
  | _ => (none, v)

/-- The parameter a word names: `[name]` and `[name=default]` mark optional parameters. -/
def paramName (word : Text) : Text :=
  (dropEndWhile (· == ']') (word.dropWhile (· == '['))).takeWhile (· != '=')

/-- A description without the dash that sets it off. -/
def stripDash (t : Text) : Text := trim (stripHead "-" (trim t))

/-! ## Filing blocks -/

/-- What a tag name stands for. -/
inductive TagClass where
  | param
  | returns
  | throws
  | link
  | free
deriving DecidableEq, Repr

/-- The class of each tag name with a meaning of its own. -/
def TagClass.names : List (String × TagClass) :=
  [("param", param), ("arg", param), ("argument", param), ("returns", returns), ("return", returns),
   ("throws", throws), ("throw", throws), ("exception", throws), ("link", link), ("see", link)]

/-- The class of a tag name. -/
def TagClass.ofName (name : Text) : TagClass :=
  ((names.find? (·.1.toList == name)).map (·.2)).getD free

/-- The parameter a value describes, unless nothing but a type stands there. -/
def Param.ofValue? (value : Text) : Option Param :=
  let (type?, rest) := splitType value
  let (word, description) := splitWord rest
  if word.isEmpty then none else some ⟨paramName word, type?, stripDash description⟩

/-- The result or error a value describes. -/
def Note.ofValue (value : Text) : Note :=
  let (type?, rest) := splitType value
  ⟨type?, stripDash rest⟩

namespace Comment

/-- Files one block. Only the first link with a value is the comment's link; the others stay tags. -/
def push (c : Comment) (b : Block) : Comment :=
  match TagClass.ofName b.tag with
  | .param => { c with params := c.params ++ (Param.ofValue? b.value).toList }
  | .returns => { c with returns := c.returns ++ [Note.ofValue b.value] }
  | .throws => { c with throws := c.throws ++ [Note.ofValue b.value] }
  | .link =>
    if c.link.isNone && !b.value.isEmpty then { c with link := some b.value }
    else { c with tags := c.tags ++ [⟨b.tag, b.value⟩] }
  | .free => { c with tags := c.tags ++ [⟨b.tag, b.value⟩] }

/-- The comment of a description and its blocks. -/
def ofBlocks (description : List Text) (blocks : List Block) : Comment :=
  blocks.foldl push { description := trim (joinWith ['\n'] description) }

/-- Reads the raw text of a block. -/
def parse (raw : Text) : Comment :=
  let (description, blocks) := cutBlocks (cleanLines raw)
  ofBlocks description blocks

end Comment

end Bookbinder
