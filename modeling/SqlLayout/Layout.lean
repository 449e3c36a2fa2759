import SqlLayout.Layout.Draft

/-!
# Layout

`layout` writes a token sequence anew with line breaks and indentation of its own. It goes through
the tokens once; `Draft.step` is what one token does to the draft. Texts and order of the tokens
stay, apart from the values of placeholders and the marks of line comments.
-/

namespace SqlLayout

inductive TokenFault where
  /-- Its kind is unknown. -/
  | unclassified (name : String)
  /-- It is a block comment without its start or its end. -/
  | unclosedComment
deriving DecidableEq

def TokenFault.message : TokenFault → Text
  | unclassified name => "unclassified token type ".toList ++ Text.quoted name.toList
  | unclosedComment => "unterminated block comment".toList

inductive LayoutError where
  /-- A token is not one that a query can hold. -/
  | badToken (fault : TokenFault) (token : Token) (index : Nat)
  /-- A placeholder has no text. -/
  | unresolved (fault : BindingFault)

namespace Draft

/-- A line comment becomes a block comment, and the line ends behind it. -/
def lineComment (o : Options) (s : Draft) (t : Text) : Draft :=
  (s.dropOverflow.write (Comment.ofLine o.dialect.commentMarks t)).newLine o.unit

/-- A block comment has lines of its own. -/
def blockComment (o : Options) (s : Draft) (t : Text) : Draft :=
  let s := s.newLine o.unit
  (s.write (Comment.reindent (s.levels.indentation o.unit) t)).newLine o.unit

/-- A clause keyword has a line of its own, one level out from the clause that it opens. -/
def clauseKeyword (o : Options) (s : Draft) (t : Text) : Draft :=
  let s := ((s.dropOverflow.outdent .continuation).outdent .clause).newLine o.unit
  ((s.indent .clause).write (Text.collapse t)).newLine o.unit

/-- Whether a keyword joins another table, which ends a continuation. -/
def isJoin (d : Dialect) (t : Text) : Bool :=
  d.joins.contains (Text.upper (Text.collapse t))

/-- A breaking keyword starts a line. -/
def breakingKeyword (o : Options) (s : Draft) (own t : Text) : Draft :=
  let s := s.dropOverflow
  let s := if isJoin o.dialect own then s.outdent .continuation else s
  (s.newLine o.unit).writeSpaced (Text.collapse t)

/-- An indented keyword starts a line, one level in. -/
def indentedKeyword (o : Options) (s : Draft) (t : Text) : Draft :=
  ((s.dropOverflow.indent .continuation).newLine o.unit).writeSpaced (Text.collapse t)

/-- A keyword of any role; `own` is its text without a comma held back. -/
def keyword (o : Options) (s : Draft) (role : Role) (own t : Text) : Draft :=
  match role with
  | .clause => s.clauseKeyword o t
  | .breaking => s.breakingKeyword o own t
  | .indented => s.indentedKeyword o t
  | .plain => s.writeWrapped o (Text.collapse t)

/-- Whether a keyword opens the clause in which commas do not break the line. -/
def isLimit (t : Text) : Bool :=
  Text.upper t == "LIMIT".toList

/-- An opening bracket that starts a block on lines of its own. -/
def openBlock (o : Options) (s : Draft) (t : Text) : Draft :=
  (((s.newLine o.unit).write t).indent .block).newLine o.unit

/-- An opening bracket keeps the space that the source has before it, or that another opening
bracket leaves. The given tokens begin with it. -/
def opening (o : Options) (s : Draft) (index : Nat) (ts : List Token) (t : Text) : Draft :=
  let s := s.dropOverflow
  let s := if s.previous = some .blank ∨ s.previous = some .opening then s else s.trimEnd
  if 0 < s.inlineDepth then { s with inlineDepth := s.inlineDepth + 1 }.write t
  else
    match InlineBlock.judge o.inlineLimit ts with
    | .fits => ({ s with inlineDepth := 1 }.note (.inlineBlock index)).write t
    | .refused => s.openBlock o t
    | .unclosed => (s.note (.unclosedBracket index)).openBlock o t

/-- A closing bracket ends an inline block on its line and any other block on a new one. -/
def closing (o : Options) (s : Draft) (t : Text) : Draft :=
  if 0 < s.inlineDepth then
    { s with inlineDepth := InlineBlock.leave s.inlineDepth }.writeAttached t
  else ((s.outdent .block).newLine o.unit).writeSpaced t

/-- A comma ends its line, or is held back for the next one; in an inline block and in a clause
that limits rows it does neither. -/
def comma (o : Options) (s : Draft) (t : Text) : Draft :=
  let s := s.dropOverflow
  if 0 < s.inlineDepth ∨ s.inLimit then s.writeAttached t
  else
    match o.commaStyle with
    | .trailing => (s.writeTight t).newLine o.unit
    | .leading => { s.trimEnd with held := t }.newLine o.unit

/-- A statement separator is followed by a blank line. -/
def separator (s : Draft) (t : Text) : Draft :=
  let s := s.writeTight t
  { s with page := s.page.append ['\n', '\n'], separated := true }

/-- An operator; `own` is its text without a comma held back. -/
def operator (o : Options) (s : Draft) (own t : Text) : Draft :=
  if own = [','] then s.comma o t
  else if own = [':'] then s.writeAttached t
  else if own = ['.'] then s.writeTight t
  else if own = [';'] then s.separator t
  else s.writeWrapped o t

/-- What one token does to the draft, before it becomes the previous one. A comma held back
is put in front of the next token that is neither blank nor a comment. -/
def place (o : Options) (s : Draft) (index : Nat) (t : Token) (rest : List Token) :
    Except LayoutError Draft :=
  let free := { s with held := [] }
  let text := s.held ++ t.text
  match t.kind with
  | .blank => .ok s
  | .lineComment => .ok (s.lineComment o t.text)
  | .blockComment =>
    if Comment.isClosed t.text then .ok (s.blockComment o t.text)
    else .error (.badToken .unclosedComment t index)
  | .keyword role => .ok { free.keyword o role t.text text with inLimit := isLimit t.text }
  | .opening => .ok (free.opening o index (t :: rest) text)
  | .closing => .ok (free.closing o text)
  | .placeholder =>
    match o.bindings.resolve s.used t with
    | .ok (value, used) => .ok ({ free with used }.writeSpaced (s.held ++ value))
    | .error fault => .error (.unresolved fault)
  | .operator => .ok (free.operator o t.text text)
  | .word | .quoted | .number => .ok (free.writeWrapped o text)
  | .unclassified name => .error (.badToken (.unclassified name) t index)

def step (o : Options) (s : Draft) (index : Nat) (t : Token) (rest : List Token) :
    Except LayoutError Draft :=
  match s.place o index t rest with
  | .ok s' => .ok { s' with previous := some t.kind }
  | .error e => .error e

/-- The drafts behind each of the tokens that come at the given index, up to the first one that
cannot be laid out. -/
def steps (o : Options) (s : Draft) (index : Nat) : List Token → List Draft × Option LayoutError
  | [] => ([], none)
  | t :: ts =>
    match s.step o index t ts with
    | .error e => ([], some e)
    | .ok s' =>
      let (later, failure) := steps o s' (index + 1) ts
      (s' :: later, failure)

/-- The draft behind the last token that can be laid out. -/
def run (o : Options) (s : Draft) (index : Nat) : List Token → Draft × Option LayoutError
  | [] => (s, none)
  | t :: ts =>
    match s.step o index t ts with
    | .error e => (s, some e)
    | .ok s' => run o s' (index + 1) ts

def text (s : Draft) : Text :=
  Text.trim s.page.text

end Draft

def layout (o : Options) (ts : List Token) : Except LayoutError Text :=
  match Draft.run o {} 0 ts with
  | (s, none) => .ok s.text
  | (_, some e) => .error e

end SqlLayout
