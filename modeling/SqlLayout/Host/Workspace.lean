import SqlLayout.Editor
import SqlLayout.Files.Tree
import SqlLayout.Host.Uri

/-!
# The host of the editor service

The editor service keeps no documents. The library that runs it does: it finds them by their
identifiers, looks on disk for one that is not open, and checks the numbers that an editor sends.
This file stands for that library as far as requests show it. It is no part of the formatter, and
no theorem is about it.
-/

namespace SqlLayout.Host

/-- The open documents by their identifiers, which are not encoded. -/
abbrev Workspace := List (Text × Text)

def Workspace.set (w : Workspace) (uri text : Text) : Workspace :=
  let key := percentDecode uri
  (key, text) :: w.filter fun d => d.1 ≠ key

inductive HostFault where
  /-- The size of a tab is no number that an editor may send. -/
  | badTabSize (n : Int)
  /-- The document is not open, and its file cannot be read. -/
  | unreadable (fault : FileFault) (path : Text)
  /-- The document is not open, and its file is not text. -/
  | undecodable (fault : DecodeFault)

/-- The largest number that an editor may send. -/
def largestNumber : Nat := 2147483647

def HostFault.message : HostFault → Text
  | badTabSize n =>
    "FormattingOptions.tab_size should be in range [0:".toList ++ Text.ofNat largestNumber ++
      "], but was ".toList ++ Text.ofInt n ++ ['.']
  | unreadable fault path => fault.report path.raw
  | undecodable fault => fault.message

/-- The text of a file on disk. A path without characters names none. -/
def readFile (disk : FileTree) (path : Text) : Except HostFault Text :=
  match if path.isEmpty then .error .missing else disk.read (.ofRaw path.raw) with
  | .error f => .error (.unreadable f path)
  | .ok bytes => bytes.toText.mapError .undecodable

def Workspace.read (w : Workspace) (disk : FileTree) (uri : Text) : Except HostFault Text :=
  match w.lookup (percentDecode uri) with
  | some text => .ok text
  | none => readFile disk (Uri.parse uri).filePath

def Workspace.format (w : Workspace) (disk : FileTree) (uri : Text) (i : Editor.Indentation) :
    Except HostFault (List Editor.Edit) :=
  if i.tabSize < 0 ∨ largestNumber < i.tabSize then .error (.badTabSize i.tabSize)
  else (w.read disk uri).map (Editor.formatEdits · i)

end SqlLayout.Host
