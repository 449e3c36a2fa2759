import SqlLayout.Report

/-!
# Formatting a query

`format` reads a query in a dialect and lays it out anew. Whatever is wrong is reported in a fixed
order: the dialect, the settings, the text, the layout.
-/

namespace SqlLayout

inductive FormatError where
  | unknownDialect (name : Text)
  | badSettings (fault : SettingsFault)
  | unreadable (error : LexError)
  | layout (error : LayoutError)

def formatWith (o : Options) (query : Text) : Except FormatError Text :=
  match tokenize o.dialect query with
  | .error e => .error (.unreadable e)
  | .ok tokens =>
    match layout o tokens with
    | .error e => .error (.layout e)
    | .ok text => .ok text

/-- The options that settings stand for in the dialect of a given name. -/
def Settings.optionsIn (s : Settings) (dialect : Text) : Except FormatError Options :=
  match Dialect.named? dialect with
  | none => .error (.unknownDialect dialect)
  | some d =>
    match s.check d with
    | .error fault => .error (.badSettings fault)
    | .ok o => .ok o

def format (dialect : Text) (s : Settings) (query : Text) : Except FormatError Text :=
  match s.optionsIn dialect with
  | .error e => .error e
  | .ok o => formatWith o query

/-- Formats a query again and again; all the texts on the way, or the first error and the text
that it is about. -/
def formatTimes (dialect : Text) (s : Settings) :
    (times : Nat) → (query : Text) → Except (FormatError × Text) (List Text)
  | 0, _ => .ok []
  | times + 1, query =>
    match format dialect s query with
    | .error e => .error (e, query)
    | .ok text =>
      match formatTimes dialect s times text with
      | .error e => .error e
      | .ok texts => .ok (text :: texts)

end SqlLayout
