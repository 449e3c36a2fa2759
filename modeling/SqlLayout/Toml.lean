import SqlLayout.Toml.Document

/-!
# TOML documents

`Toml.parse` reads a configuration document into the entries of its root table, or says why the
text is not one; of several faults the first one in the text counts. Nested values are read by
recursion on a bound that the length of the text supplies: every step on the way to a nested value
takes at least one character.
-/

namespace SqlLayout.Toml

/-- A text with carriage returns in front of line feeds left out. -/
def normalizeLines : Text → Text
  | [] => []
  | '\r' :: '\n' :: cs => '\n' :: normalizeLines cs
  | c :: cs => c :: normalizeLines cs

/-- Whether a character can stand in a key without quotes. -/
def isBareKeyChar (c : Char) : Bool :=
  c.isAlphanum || c == '-' || c == '_'

def keyPart? (t : Text) : Option (Text × Text) :=
  match t with
  | '\x22' :: rest => basicString? rest
  | '\x27' :: rest => literalString? rest
  | _ =>
    let key := t.takeWhile isBareKeyChar
    if key.isEmpty then none else some (key, t.drop key.length)

/-- A key: parts divided by dots, with spaces around them. -/
def keyPath? : (bound : Nat) → Text → Option (KeyPath × Text)
  | 0, _ => none
  | bound + 1, t =>
    match keyPart? t with
    | none => none
    | some (part, rest) =>
      match skipSpaces rest with
      | '.' :: rest =>
        (keyPath? bound (skipSpaces rest)).map fun (parts, rest) => (part :: parts, rest)
      | rest => some ([part], rest)

/-- Skips blanks, line ends and comments inside a list. -/
def skipFiller? (inComment : Bool) : Text → Option Text
  | [] => some []
  | c :: cs =>
    if inComment then
      if c = '\n' then skipFiller? false cs
      else if isControl c then none
      else skipFiller? true cs
    else if isSpace c ∨ c = '\n' then skipFiller? false cs
    else if c = '#' then skipFiller? true cs
    else some (c :: cs)

/-- The end of a statement: spaces, a comment, and a line end or the end of the document. -/
def lineEnd? (t : Text) : Option Text :=
  let rest := skipSpaces t
  let comment := if rest.startsWith ['#'] then rest.takeWhile (· ≠ '\n') else []
  if comment.any isControl then none
  else
    match rest.drop comment.length with
    | [] => some []
    | '\n' :: rest => some rest
    | _ => none

/-- A result that the text must have at this place. -/
def required : Option α → Except Fault α
  | some a => .ok a
  | none => .error .malformed

/-- A value that is neither a string nor holds others. -/
def scalar (t : Text) : Except Fault (Value × Text) :=
  match bool? t <|> moment? t <|> number? t with
  | some (.ok v, rest) => .ok (v, rest)
  | some (.error f, _) => .error f
  | none => .error .malformed

def string? : Text → Option (Text × Text)
  | '\x22' :: '\x22' :: '\x22' :: rest => longString? '\x22' longBasicString? rest
  | '\x22' :: rest => basicString? rest
  | '\x27' :: '\x27' :: '\x27' :: rest => longString? '\x27' longLiteralString? rest
  | '\x27' :: rest => literalString? rest
  | _ => none

mutual

def value : (bound : Nat) → Text → Except Fault (Value × Text)
  | 0, _ => .error .malformed
  | bound + 1, t =>
    match t with
    | '\x22' :: _ | '\x27' :: _ => (required (string? t)).map fun (s, rest) => (.text s, rest)
    | '[' :: rest => (listItems bound rest).map fun (vs, rest) => (.list vs, rest)
    | '\x7b' :: rest =>
      match skipSpaces rest with
      | '\x7d' :: rest => .ok (.table [], rest)
      | rest => (tableItems bound {} rest).map fun (es, rest) => (.table es, rest)
    | _ => scalar t

/-- The rest of a list, behind its opening bracket or a comma. -/
def listItems : (bound : Nat) → Text → Except Fault (List Value × Text)
  | 0, _ => .error .malformed
  | bound + 1, t =>
    match skipFiller? false t with
    | none => .error .malformed
    | some (']' :: rest) => .ok ([], rest)
    | some t =>
      match value bound t with
      | .error f => .error f
      | .ok (v, rest) =>
        match skipFiller? false rest with
        | some (']' :: rest) => .ok ([v], rest)
        | some (',' :: rest) => (listItems bound rest).map fun (vs, rest) => (v :: vs, rest)
        | _ => .error .malformed

/-- The rest of a table written as a value, from one of its keys on. -/
def tableItems : (bound : Nat) → InlineTable → Text → Except Fault (Entries × Text)
  | 0, _, _ => .error .malformed
  | bound + 1, d, t =>
    match keyPath? (t.length + 1) t with
    | some (path, '=' :: rest) =>
      match value bound (skipSpaces rest) with
      | .error f => .error f
      | .ok (v, rest) =>
        match d.assign path v with
        | none => .error .malformed
        | some d =>
          match skipSpaces rest with
          | '\x7d' :: rest => .ok (d.entries, rest)
          | ',' :: rest => tableItems bound d (skipSpaces rest)
          | _ => .error .malformed
    | _ => .error .malformed

end

def assignment (d : Document) (t : Text) : Except Fault (Document × Text) :=
  match keyPath? (t.length + 1) t with
  | some (path, '=' :: rest) =>
    match value (2 * rest.length + 2) (skipSpaces rest) with
    | .ok (v, rest) => (required (d.assign path v)).map (·, rest)
    | .error f => .error f
  | _ => .error .malformed

def header? (d : Document) (t : Text) : Option (Document × Text) :=
  match t with
  | '[' :: rest =>
    match keyPath? (rest.length + 1) (skipSpaces rest) with
    | some (path, ']' :: ']' :: rest) => (d.openListTable path).map (·, rest)
    | _ => none
  | _ =>
    match keyPath? (t.length + 1) (skipSpaces t) with
    | some (path, ']' :: rest) => (d.openTable path).map (·, rest)
    | _ => none

/-- One statement; an empty line and a comment say nothing. -/
def statement (d : Document) (t : Text) : Except Fault (Document × Text) :=
  match t with
  | '[' :: rest => required (header? d rest)
  | '#' :: _ | '\n' :: _ | [] => .ok (d, t)
  | _ => assignment d t

/-- The statements of a document; every one takes at least its line end. -/
def statements : (bound : Nat) → Document → Text → Except Fault Document
  | 0, _, _ => .error .malformed
  | bound + 1, d, t =>
    match t with
    | [] => .ok d
    | _ =>
      match statement d (skipSpaces t) with
      | .error f => .error f
      | .ok (d, rest) =>
        match lineEnd? rest with
        | none => .error .malformed
        | some rest => statements bound d rest

/-- The entries of the root table of a document. -/
def parse (t : Text) : Except Fault Entries :=
  let t := normalizeLines t
  (statements (t.length + 1) {} t).map Document.entries

end SqlLayout.Toml
