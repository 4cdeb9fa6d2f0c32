import Bookbinder.Script.Lexeme

/-!
# Scanning a script

`Script.step` recognises the lexeme at the start of a text and says how the state goes on; `Script.scan`
cuts a whole script. Strings, templates, regular expressions and element content are single lexemes or
frames of their own, so that nothing inside them passes for a comment, while the `${ }` of a template and
the `{ }` of an element are code again.

Not all that is written like a comment is a comment node of the grammars. In those with types, a comment
that stands directly in the body of an interface, between its members, is a node of another kind, and a
block that never ends is a node of none. The scanner tells these apart as remarks.
-/

namespace Bookbinder.Script

/-- A lexeme recognised at the start of a text, by its length, and the state after it. -/
structure Step where
  kind : LexemeKind
  length : Nat
  state : ScanState

namespace Step

/-- A lexeme that counts for what may follow. -/
def significant (kind : LexemeKind) (length : Nat) (stack : List Frame) (last : Last) : Step :=
  ⟨kind, length, ⟨stack, last, false⟩⟩

/-- A lexeme that leaves the state alone but for line breaks in its text. -/
def trivia (kind : LexemeKind) (length : Nat) (s : ScanState) (t : Text) : Step :=
  ⟨kind, length, { s with lineBreak := s.lineBreak || (t.take length).contains '\n' }⟩

end Step

/-! ## Comments -/

/-- The character can open a member of an interface on a line of its own. -/
def startsMember (c : Char) : Bool :=
  isNameChar c || c == '"' || c == '\'' || c == '[' || c == '(' || c == '+' || c == '-'

/-- A comment here stands between the members of an interface; `after` is the text behind it. -/
def betweenMembers (s : ScanState) (lineBreak : Bool) (after : Text) : Bool :=
  match s.stack with
  | .interfaceBody 0 :: _ =>
    match s.last with
    | .statement => true
    | .operand =>
      match skipTrivia after.length after with
      | ([], _) => true
      | (c :: _, broken) =>
        c == ';' || c == ',' || c == '}' || ((lineBreak || broken) && startsMember c)
    | _ => false
  | _ => false

/-- The step over a comment of that length. -/
def commentStep (s : ScanState) (t : Text) (length : Nat) : Step :=
  let text := t.take length
  let hidden := betweenMembers s (s.lineBreak || text.contains '\n') (t.drop length)
  .trivia (if isClosed text && !hidden then .comment else .remark) length s t

/-! ## Words -/

/-- Words after which a value has to follow. -/
def operatorWords : List String :=
  ["return", "typeof", "instanceof", "in", "new", "delete", "void", "throw", "case", "yield", "await",
   "extends"]

/-- Words that stand between a value and what has to follow; elsewhere they are names. -/
def infixWords : List String := ["of", "as", "satisfies"]

/-- Words after which a condition in parentheses follows. -/
def controlWords : List String := ["if", "for", "while", "with"]

/-- Words after which a block or a statement follows. -/
def blockWords : List String := ["do", "else", "try", "finally"]

/-- What a word leads to. -/
def afterWord (last : Last) (word : Text) : Last :=
  let w := String.ofList word
  if last = .dot then .operand
  else if last = .control ∧ w = "await" then .control
  else if operatorWords.contains w ∨ last = .operand ∧ infixWords.contains w then .operator
  else if w = "default" then .defaultWord
  else if controlWords.contains w then .control
  else if blockWords.contains w then .blockWord
  else .operand

/-- Words of a type after which more of the type has to follow. -/
def typeWords : List String :=
  ["typeof", "keyof", "infer", "extends", "is", "asserts", "as", "new", "unique"]

/-- What a word directly in the body of an interface leads to: there it belongs to a type or names a
member. -/
def afterMemberWord (last : Last) (word : Text) : Last :=
  if last ≠ .dot ∧ typeWords.contains (String.ofList word) then .operator else .operand

/-- The word starts an interface: it is `interface` and a name follows. -/
def opensInterface (g : Grammar) (last : Last) (word after : Text) : Bool :=
  g.hasTypes && last != .dot && word == "interface".toList &&
    (skipTrivia after.length after).1.head?.any isNameChar

/-- Statements follow each other here. -/
def betweenStatements : List Frame → Bool
  | [] | .brace true :: _ | .valueBody :: _ => true
  | _ => false

/-- An expression starts here and no statement. -/
def startsExpression (s : ScanState) : Bool :=
  match s.last with
  | .operator | .arrow => true
  | .colon => !betweenStatements s.stack
  | _ => false

/-- The word starts a function or a class that is a value: an expression starts here, and the word is no
key of an object. -/
def opensValue (s : ScanState) (word after : Text) : Bool :=
  startsExpression s &&
    match (skipTrivia after.length after).1 with
    | c :: _ =>
      (word == "function".toList && (isNameChar c || c == '(' || c == '*' || c == '<')) ||
        (word == "class".toList && (isNameChar c || c == '{' || c == '<'))
    | [] => false

/-- The step over a word. -/
def wordStep (g : Grammar) (s : ScanState) (t : Text) : Step :=
  let word := t.takeWhile isNameChar
  if opensInterface g s.last word (t.drop word.length) then
    .significant .word word.length (.interfaceHead 0 :: s.stack) .operand
  else
    match s.stack with
    | .interfaceBody _ :: _ =>
      .significant .word word.length s.stack (afterMemberWord s.last word)
    | _ =>
      if opensValue s word (t.drop word.length) then
        .significant .word word.length (.valueHead :: s.stack) .operand
      else .significant .word word.length s.stack (afterWord s.last word)

/-! ## Elements -/

/-- The name at the start of a tag. -/
def tagName (t : Text) : Text := t.takeWhile fun c => isNameChar c || c == '.' || c == '-' || c == ':'

/-- Some tail of the text starts with `needle`. -/
def occurs (needle : Text) : Text → Bool
  | [] => needle.isEmpty
  | c :: cs => startsWith needle (c :: cs) || occurs needle cs

/-- The text after an angle bracket is that of an opening tag. Where types are part of the language it
may be a list of type parameters instead: one with a comma, a bound or a default, or one whose closing
tag never comes. -/
def opensElement (g : Grammar) (after : Text) : Bool :=
  match after with
  | '>' :: _ => true
  | c :: _ =>
    if !isNameChar c then false
    else if !g.hasTypes then true
    else
      let name := tagName after
      let rest := trimStart (after.drop name.length)
      match rest with
      | ',' :: _ | '=' :: _ => false
      | '>' :: rest => occurs ("</".toList ++ name) rest
      | _ => name != "const".toList && !(startsWith "extends" rest &&
          (rest.drop "extends".length).head?.any isSpace)
  | [] => false

/-- The state after an element has ended. -/
def closeElement (stack : List Frame) : ScanState := ⟨stack, .operand, false⟩

/-- The step at the start of a text inside an opening tag. -/
def tagStep (s : ScanState) (angles : Nat) (outer : List Frame) (t : Text) : Step :=
  match comment? t with
  | some length => commentStep s t length
  | none =>
    match t with
    | '/' :: '>' :: _ => ⟨.punctuation, 2, closeElement outer⟩
    | '=' :: '>' :: _ => .significant .punctuation 2 s.stack .operator
    | '=' :: _ => .significant .punctuation 1 s.stack .colon
    | '{' :: _ => .significant .punctuation 1 (.container :: s.stack) .operator
    | '<' :: _ =>
      -- Behind an equals sign an element is the value of an attribute.
      if s.last = .colon then .significant .punctuation 1 (.tag 0 :: s.stack) .operator
      else .significant .punctuation 1 (.tag (angles + 1) :: outer) .operator
    | '>' :: _ =>
      match angles with
      | 0 => .significant .punctuation 1 (.children :: outer) .operator
      | n + 1 => .significant .punctuation 1 (.tag n :: outer) .operator
    | c :: cs =>
      if c = '"' ∨ c = '\'' then .significant .literal (1 + attributeEnd c cs) s.stack .operand
      else if isSpace c then .trivia .blank (runLength isSpace t) s t
      else .significant .punctuation 1 s.stack .operator
    | [] => .significant .punctuation 0 s.stack .operator

/-- The step at the start of a text inside a closing tag. -/
def closingTagStep (s : ScanState) (outer : List Frame) (t : Text) : Step :=
  match comment? t with
  | some length => commentStep s t length
  | none =>
    match t with
    | '>' :: _ => ⟨.punctuation, 1, closeElement outer⟩
    | _ => .significant .punctuation 1 s.stack .operator

/-- The step at the start of a text inside element content. -/
def childrenStep (s : ScanState) (outer : List Frame) (t : Text) : Step :=
  match t with
  | '{' :: _ => .significant .punctuation 1 (.container :: s.stack) .operator
  | '<' :: '/' :: _ => .significant .punctuation 2 (.closingTag :: outer) .operator
  | '<' :: '!' :: '-' :: '-' :: _ => .trivia .remark (runLength (!endsPageComment ·) t) s t
  | '<' :: _ => .significant .punctuation 1 (.tag 0 :: s.stack) .operator
  | _ => .significant .markupText (runLength (fun c => c != '{' && c != '<') t) s.stack .operator

/-- The step at the start of a text inside a template. -/
def templateStep (s : ScanState) (outer : List Frame) (t : Text) : Step :=
  match t with
  | '`' :: _ => .significant .literal 1 outer .operand
  | '$' :: '{' :: _ => .significant .punctuation 2 (.substitution :: s.stack) .operator
  | _ => .significant .literal (templateEnd t) s.stack .operator

/-! ## Brackets -/

/-- A brace after this opens statements or members and not an object. -/
def opensBlock (s : ScanState) : Bool :=
  match s.last with
  | .operator | .defaultWord => false
  | .colon => betweenStatements s.stack
  | _ => true

/-- The stack and the last lexeme after an opening brace. -/
def openBrace (s : ScanState) : List Frame × Last :=
  match s.stack, s.last with
  | .interfaceHead 0 :: outer, _ => (.interfaceBody 0 :: outer, .statement)
  -- Behind a colon stands the type of the result.
  | .valueHead :: _, .colon => (.brace false :: s.stack, .operator)
  | .valueHead :: outer, _ => (.valueBody :: outer, .statement)
  | stack, _ =>
    if opensBlock s then (.brace true :: stack, .statement) else (.brace false :: stack, .operator)

/-- The stack and the last lexeme after a closing brace, which also closes what was left open inside
it. -/
def closeBraces : List Frame → List Frame × Last
  | .brace true :: outer | .interfaceBody _ :: outer => (outer, .statement)
  | .brace false :: outer | .valueBody :: outer => (outer, .operand)
  | .substitution :: outer | .container :: outer => (outer, .operator)
  | .paren _ :: outer | .bracket :: outer | .interfaceHead _ :: outer | .valueHead :: outer =>
    closeBraces outer
  | stack => (stack, .statement)

/-- The stack and the last lexeme after a closing parenthesis. -/
def closeParen : List Frame → List Frame × Last
  | .paren control :: outer => (outer, if control then .statement else .operand)
  | stack => (stack, .operand)

/-- The stack and the last lexeme after a closing bracket. -/
def closeBracket : List Frame → List Frame × Last
  | .bracket :: outer => (outer, .operand)
  | stack => (stack, .operand)

/-- The stack and the last lexeme after an opening angle bracket that opens no element. -/
def openAngle : List Frame → List Frame × Last
  | .interfaceHead n :: outer => (.interfaceHead (n + 1) :: outer, .operator)
  | .interfaceBody n :: outer => (.interfaceBody (n + 1) :: outer, .operator)
  | stack => (stack, .operator)

/-- The stack and the last lexeme after a closing angle bracket. -/
def closeAngle : List Frame → List Frame × Last
  | .interfaceHead n :: outer => (.interfaceHead (n - 1) :: outer, .operand)
  | .interfaceBody n :: outer => (.interfaceBody (n - 1) :: outer, .operand)
  | stack => (stack, .angle)

/-- The stack and the last lexeme after a comma, which separates the members of an interface. -/
def afterComma : List Frame → List Frame × Last
  | .interfaceBody 0 :: outer => (.interfaceBody 0 :: outer, .statement)
  | stack => (stack, .operator)

/-- The stack and the last lexeme after a semicolon. -/
def afterSemicolon : List Frame → List Frame × Last
  | .interfaceHead _ :: outer | .valueHead :: outer => (outer, .statement)
  | stack => (stack, .statement)

/-! ## Code -/

/-- The step over punctuation. -/
def punctuationStep (s : ScanState) (t : Text) : Step :=
  let one (r : List Frame × Last) : Step := .significant .punctuation 1 r.1 r.2
  let suffixed : Last := if s.last = .operand then .operand else .operator
  match t with
  | '(' :: _ => one (.paren (s.last == .control) :: s.stack, .operator)
  | ')' :: _ => one (closeParen s.stack)
  | '[' :: _ => one (.bracket :: s.stack, .operator)
  | ']' :: _ => one (closeBracket s.stack)
  | '{' :: _ => one (openBrace s)
  | '}' :: _ => one (closeBraces s.stack)
  | '=' :: '>' :: _ => .significant .punctuation 2 s.stack .arrow
  | '.' :: '.' :: '.' :: _ => .significant .punctuation 3 s.stack .operator
  | '?' :: '.' :: _ => .significant .punctuation 2 s.stack .dot
  | '.' :: _ => one (s.stack, .dot)
  | '+' :: '+' :: _ | '-' :: '-' :: _ => .significant .punctuation 2 s.stack suffixed
  | '!' :: '=' :: _ => .significant .punctuation 2 s.stack .operator
  | '!' :: _ => one (s.stack, suffixed)
  | ';' :: _ => one (afterSemicolon s.stack)
  | ',' :: _ => one (afterComma s.stack)
  | ':' :: _ => one (s.stack, .colon)
  | '<' :: _ => one (openAngle s.stack)
  | '>' :: _ => one (closeAngle s.stack)
  | _ => one (s.stack, .operator)

/-- The length of a line that is no code: one that starts with a hash and an exclamation mark, or with
one of the old page comment marks where a value or, on a new line, a statement may start. -/
def markedLine? (s : ScanState) (t : Text) : Option Nat :=
  match t with
  | '#' :: '!' :: _ =>
    if s.stack.isEmpty && s.last == .statement then some (runLength (· != '\n') t) else none
  | '<' :: '!' :: '-' :: '-' :: _ =>
    if s.last.expectsValue then some (runLength (!endsPageComment ·) t) else none
  | '-' :: '-' :: '>' :: _ =>
    if s.last.expectsValue || (s.lineBreak && betweenStatements s.stack) then
      some (runLength (!endsPageComment ·) t)
    else none
  | _ => none

/-- An angle bracket here stands in the head or body of an interface. -/
def inInterface : List Frame → Bool
  | .interfaceHead _ :: _ | .interfaceBody _ :: _ => true
  | _ => false

/-- The step at the start of a text of code. -/
def codeStep (g : Grammar) (s : ScanState) (t : Text) : Step :=
  match comment? t with
  | some length => commentStep s t length
  | none =>
    match markedLine? s t with
    | some length => .trivia .remark length s t
    | none =>
      match t with
      | [] => .significant .punctuation 0 s.stack s.last
      | c :: cs =>
        if isSpace c then .trivia .blank (runLength isSpace t) s t
        else if c = '"' ∨ c = '\'' then .significant .literal (1 + stringEnd c cs) s.stack .operand
        else if c = '`' then .significant .literal 1 (.template :: s.stack) .operator
        else if isNameChar c then wordStep g s t
        else if c = '/' ∧ s.last.expectsValue then
          match regexEnd? false cs with
          | some n => .significant .literal (1 + n) s.stack .operand
          | none => .significant .punctuation 1 s.stack .operator
        else if c = '<' ∧ g.hasMarkup ∧ s.last.expectsValue ∧ ¬inInterface s.stack ∧
            opensElement g cs then
          .significant .punctuation 1 (.tag 0 :: s.stack) .operator
        else punctuationStep s t

/-- The lexeme at the start of a text. -/
def step (g : Grammar) (s : ScanState) (t : Text) : Step :=
  match s.stack with
  | .template :: outer => templateStep s outer t
  | .children :: outer => childrenStep s outer t
  | .tag angles :: outer => tagStep s angles outer t
  | .closingTag :: outer => closingTagStep s outer t
  | _ => codeStep g s t

/-- The lexemes of a text from a state on. Every lexeme takes at least one character. -/
def scanFrom (g : Grammar) (s : ScanState) : Text → List Lexeme
  | [] => []
  | c :: cs =>
    let r := step g s (c :: cs)
    ⟨r.kind, c :: cs.take (r.length - 1)⟩ :: scanFrom g r.state (cs.drop (r.length - 1))
termination_by t => t.length
decreasing_by simp only [List.length_drop, List.length_cons]; omega

/-- The lexemes of a script. -/
def scan (g : Grammar) (t : Text) : List Lexeme := scanFrom g {} t

end Bookbinder.Script
