import Bookbinder.Toml.Scalar

/-!
# Reading TOML

`Toml.parse?` reads a document line by line. A header moves to a table, a line with a key sets a value
in the table of the last header; keys that are set twice and tables that are opened twice are refused.
-/

namespace Bookbinder.Toml

/-! ## Keys, blanks and comments -/

/-- A comment up to the end of its line. -/
def skipComment? : Text → Option Text
  | '#' :: t =>
    let (body, rest) := t.span fun c => !isControl c
    if body.length = t.length ∨ (lineEnd? rest).isSome then some rest else none
  | t => some t

/-- White space, line ends and comments between the items of an array. -/
def skipLines? : Nat → Text → Option Text
  | 0, _ => none
  | n + 1, t => do
    let t ← skipComment? (skipSpace t)
    match lineEnd? t with
    | some t => skipLines? n t
    | none => return t

/-- A character of a key without quotes. -/
def isKeyChar (c : Char) : Bool := c.isAlphanum || c == '_' || c == '-'

/-- One part of a key. -/
def keyPart? (t : Text) : Option (Text × Text) :=
  match t with
  | '"' :: r => basicBody? (r.length + 1) r
  | '\'' :: r => literalBody? r
  | _ =>
    match t.span isKeyChar with
    | ([], _) => none
    | r => some r

/-- A key: parts with dots between them. -/
def key? : Nat → Text → Option (List Text × Text)
  | 0, _ => none
  | n + 1, t => do
    let (part, t) ← keyPart? (skipSpace t)
    match skipSpace t with
    | '.' :: t =>
      let (parts, t) ← key? n t
      return (part :: parts, t)
    | t => return ([part], t)

/-! ## Values -/

/-- A reader of values. -/
abbrev ValueReader := Text → Option (Toml × Text)

/-- The items of an array up to its closing bracket. -/
def arrayItems? (value? : ValueReader) : Nat → Text → Option (List Toml × Text)
  | 0, _ => none
  | n + 1, t => do
    let t ← skipLines? (t.length + 1) t
    match t with
    | ']' :: t => return ([], t)
    | _ =>
      let (v, t) ← value? t
      let t ← skipLines? (t.length + 1) t
      match t with
      | ']' :: t => return ([v], t)
      | ',' :: t =>
        let (vs, t) ← arrayItems? value? n t
        return (v :: vs, t)
      | _ => none

/-- A key, an equals sign and a value. -/
def assignment? (value? : ValueReader) (t : Text) : Option (List Text × Toml × Text) := do
  let (path, t) ← key? t.length t
  let '=' :: t := skipSpace t | none
  let (v, t) ← value? (skipSpace t)
  return (path, v, t)

/-- The fields of an inline table up to its closing brace. -/
def inlineFields? (value? : ValueReader) : Nat → Fields → Text → Option (Fields × Text)
  | 0, _, _ => none
  | n + 1, fields, t => do
    let (path, v, t) ← assignment? value? t
    let fields ← setDotted v path fields
    match skipSpace t with
    | '}' :: t => return (fields, t)
    | ',' :: t => inlineFields? value? n fields t
    | _ => none

/-- A value; `depth` bounds how far arrays and inline tables are nested. -/
def value? : Nat → ValueReader
  | 0, _ => none
  | depth + 1, t =>
    match t with
    | '"' :: _ | '\'' :: _ => (string? t).map fun r => (text r.1, r.2)
    | '[' :: r => (arrayItems? (value? depth) (r.length + 1) r).map fun r => (array r.1, r.2)
    | '{' :: r =>
      match skipSpace r with
      | '}' :: r => some (inlineTable [], r)
      | r => (inlineFields? (value? depth) (r.length + 1) [] r).map fun r => (inlineTable r.1, r.2)
    | 't' :: 'r' :: 'u' :: 'e' :: r => some (boolean true, r)
    | 'f' :: 'a' :: 'l' :: 's' :: 'e' :: r => some (boolean false, r)
    | _ => if looksLikeDate t then (dateTime? t).map (dateTime, ·) else number? t

/-- How deep values may be nested. -/
def maxDepth : Nat := 80

/-! ## Documents -/

/-- What has been read: the document's fields and the path of the last header. -/
structure Progress where
  fields : Fields := []
  header : List Text := []

/-- A path of at least one key as the keys before the last, and the last. -/
def splitLast? (path : List Text) : Option (List Text × Text) :=
  path.getLast?.map (path.dropLast, ·)

/-- One line up to its comment. -/
def expression? (p : Progress) (t : Text) : Option (Progress × Text) :=
  match t with
  | '[' :: '[' :: r => do
    let (path, r) ← key? r.length r
    let ']' :: ']' :: r := skipSpace r | none
    let (parents, last) ← splitLast? path
    return (⟨← openTables parents last p.fields, path⟩, r)
  | '[' :: r => do
    let (path, r) ← key? r.length r
    let ']' :: r := skipSpace r | none
    let (parents, last) ← splitLast? path
    return (⟨← openTable parents last p.fields, path⟩, r)
  | [] | '#' :: _ | '\n' :: _ | '\r' :: _ => some (p, t)
  | _ => do
    let (path, v, r) ← assignment? (value? maxDepth) t
    return (⟨← changeAt (setDotted v path) p.header p.fields, p.header⟩, r)

/-- All lines. -/
def lines? : Nat → Progress → Text → Option Fields
  | 0, _, _ => none
  | n + 1, p, t => do
    let (p, t) ← expression? p (skipSpace t)
    let t ← skipComment? (skipSpace t)
    match t with
    | [] => return p.fields
    | _ => lines? n p (← lineEnd? t)

/-- Reads a document. A byte order mark at its start is passed over. -/
def parse? (t : Text) : Option Fields :=
  let t := stripHead ['\uFEFF'] t
  lines? (t.length + 1) {} t

end Bookbinder.Toml
