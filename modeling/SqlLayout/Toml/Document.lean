import SqlLayout.Toml.Moment

/-!
# Tables of a TOML document

A document under construction: the entries so far, and which tables may still be opened or added
to. A table is opened by at most one header; a table made by a dotted key is closed to others when
its section ends; a table or list written as a value is never added to.
-/

namespace SqlLayout.Toml

abbrev Entries := List (Text × Value)

/-- The way from the root of the document to a table or value. -/
abbrev KeyPath := List Text

def setEntry (key : Text) (v : Value) (es : Entries) : Entries :=
  es.map fun e => if e.1 = key then (key, v) else e

/-- Changes the table at the end of a path; tables on the way are made where they are missing. In
a list the last table is meant, unless `lists` forbids to enter lists. -/
def updateAt (lists : Bool) (f : Entries → Option Entries) : KeyPath → Entries → Option Entries
  | [], es => f es
  | k :: ks, es =>
    match es.lookup k with
    | none => (updateAt lists f ks []).map fun t => es ++ [(k, .table t)]
    | some (.table t) => (updateAt lists f ks t).map fun t' => setEntry k (.table t') es
    | some (.list vs) =>
      match lists, vs.getLast? with
      | true, some (.table t) =>
        (updateAt lists f ks t).map fun t' => setEntry k (.list (vs.dropLast ++ [.table t'])) es
      | _, _ => none
    | some _ => none

def addEntry (key : Text) (v : Value) (es : Entries) : Option Entries :=
  if (es.lookup key).isSome then none else some (es ++ [(key, v)])

/-- Adds an empty table to a list of tables, which is made where it is missing. -/
def addTable (key : Text) (es : Entries) : Option Entries :=
  match es.lookup key with
  | none => some (es ++ [(key, .list [.table []])])
  | some (.list vs) => some (setEntry key (.list (vs ++ [.table []])) es)
  | some _ => none

/-- Whether a value has values inside. -/
def isContainer : Value → Bool
  | .list _ | .table _ => true
  | _ => false

/-- Whether one of the given paths is on the way to another. -/
def covers (paths : List KeyPath) (path : KeyPath) : Bool :=
  paths.any fun p => p.isPrefixOf path

structure Document where
  entries : Entries := []
  /-- The tables that no header and no dotted key may open any more. -/
  declared : List KeyPath := []
  /-- The tables that dotted keys of the current section made or entered. -/
  entered : List KeyPath := []
  /-- The values that nothing is added to. -/
  frozen : List KeyPath := []
  /-- The table of the current section. -/
  header : KeyPath := []

namespace Document

/-- Ends a section: the tables that its dotted keys entered are closed to others. -/
def endSection (d : Document) : Document :=
  { d with declared := d.entered ++ d.declared, entered := [] }

def openTable (d : Document) (path : KeyPath) : Option Document :=
  let d := d.endSection
  if d.declared.contains path || covers d.frozen path then none
  else (updateAt true some path d.entries).map fun entries =>
    { d with entries, declared := path :: d.declared, header := path }

/-- Begins the section of a new table in a list. What was said about the table before it does not
hold for the new one. -/
def openListTable (d : Document) (path : KeyPath) : Option Document :=
  let d := d.endSection
  if covers d.frozen path then none
  else
    let keeps (p : KeyPath) : Bool := !path.isPrefixOf p
    (updateAt true (addTable (path.getLastD [])) path.dropLast d.entries).map fun entries =>
      { d with
        entries, declared := path :: d.declared.filter keeps, frozen := d.frozen.filter keeps,
        header := path }

/-- The tables on the way to a key, seen from the root; the section's own table is left out. -/
def wayTo (header path : KeyPath) : List KeyPath :=
  (List.range (path.length - 1)).map fun i => header ++ path.take (i + 1)

/-- Gives a key of the current section its value. -/
def assign (d : Document) (path : KeyPath) (v : Value) : Option Document :=
  let way := wayTo d.header path
  let parent := d.header ++ path.dropLast
  if way.any d.declared.contains || covers d.frozen parent then none
  else (updateAt true (addEntry (path.getLastD []) v) parent d.entries).map fun entries =>
    { d with
      entries, entered := way ++ d.entered,
      frozen := if isContainer v then (d.header ++ path) :: d.frozen else d.frozen }

end Document

/-- A table written as a value, under construction. -/
structure InlineTable where
  entries : Entries := []
  /-- The values that nothing is added to. -/
  frozen : List KeyPath := []

/-- Gives a key of a table written as a value its value. -/
def InlineTable.assign (d : InlineTable) (path : KeyPath) (v : Value) : Option InlineTable :=
  if covers d.frozen path then none
  else (updateAt false (addEntry (path.getLastD []) v) path.dropLast d.entries).map fun entries =>
    { entries, frozen := if isContainer v then path :: d.frozen else d.frozen }

end SqlLayout.Toml
