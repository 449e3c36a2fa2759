import SqlLayout.Format

/-!
# Editor service

An editor opens documents, changes them, asks for their faults and for their formatting. A document
has at most one fault, the place where reading it fails, and its formatting is one edit that
replaces the whole text.
-/

namespace SqlLayout.Editor

/-- A stretch of a document; lines and characters count from 0. -/
structure Range where
  startLine : Nat
  startCharacter : Nat
  endLine : Nat
  endCharacter : Nat
deriving DecidableEq

structure Diagnostic where
  range : Range
  message : Text
  /-- 1 for an error. -/
  severity : Nat
  source : Text
deriving DecidableEq

def diagnose (text : Text) : List Diagnostic :=
  match tokenize .standard text with
  | .ok _ => []
  | .error e =>
    let line := e.position.line - 1
    let character := e.position.column - 1
    [{ range := ⟨line, character, line, character + 1⟩, message := e.fault.message, severity := 1,
       source := "sqlshape".toList }]

/-- How the editor wants lines to be indented. -/
structure Indentation where
  tabSize : Int
  insertSpaces : Bool

def Indentation.unit (i : Indentation) : Text :=
  if i.insertSpaces then List.replicate i.tabSize.toNat ' ' else ['\t']

structure Edit where
  range : Range
  newText : Text
deriving DecidableEq

def wholeRange (text : Text) : Range :=
  let (first, later) := Text.lines text
  ⟨0, 0, later.length, (later.getLastD first).length⟩

/-- The edits that format a document: one, or none if it is formatted or cannot be read. -/
def formatEdits (text : Text) (i : Indentation) : List Edit :=
  match formatWith { unit := i.unit } text with
  | .error _ => []
  | .ok formatted =>
    let newText := if formatted.isEmpty then [] else formatted ++ ['\n']
    if newText = text then [] else [{ range := wholeRange text, newText }]

end SqlLayout.Editor
