import SqlLayout.Files.Bytes
import SqlLayout.Files.Path

/-!
# File trees

The files below a working directory. A path is followed component by component, so that it fails
where a directory is missing or a file stands in the way. Outside of the directory nothing is known
but the directories above it, the root, and the few places that every system has.
-/

namespace SqlLayout

inductive FileFault where
  | missing
  | notDirectory
  | isDirectory
  | nameTooLong
  /-- The path holds a null character, so the operating system is not even asked. -/
  | nullInName
  /-- The path has no bytes to ask the operating system for. -/
  | unencodable (fault : EncodeFault)
deriving DecidableEq

namespace FileFault

/-- The number that the operating system gives a fault. -/
def code? : FileFault → Option Nat
  | missing => some 2
  | notDirectory => some 20
  | isDirectory => some 21
  | nameTooLong => some 36
  | nullInName | unencodable _ => none

def message : FileFault → Text
  | missing => "No such file or directory".toList
  | notDirectory => "Not a directory".toList
  | isDirectory => "Is a directory".toList
  | nameTooLong => "File name too long".toList
  | nullInName => "embedded null byte".toList
  | unencodable fault => fault.message

/-- A fault of the operating system with its number and the path that it is about. -/
def report (f : FileFault) (path : RawText) : Text :=
  match f.code? with
  | none => f.message
  | some code =>
    "[Errno ".toList ++ Text.ofNat code ++ "] ".toList ++ f.message ++ ": ".toList ++ path.quoted

end FileFault

inductive FileEntry where
  | file (content : Bytes)
  | directory
deriving DecidableEq

/-- Where a file or a directory stands: the components of its path, each by its bytes. Those of an
absolute path begin with a slash. -/
abbrev Place := List Bytes

/-- Files and directories by their places; a directory above one of them is there without being
named. -/
structure FileTree where
  entries : List (Place × FileEntry)
deriving DecidableEq

namespace FileTree

def slash : UInt8 := 47

def dot : UInt8 := 46

/-- The component that leads to the directory above. -/
def up : Bytes := [dot, dot]

/-- The directory above a place. Above the working directory the way is written with double dots,
and above the root there is only the root. -/
def above (place : Place) : Place :=
  match place.getLast? with
  | none => [up]
  | some last =>
    if last = up then place ++ [up] else if last.all (· == slash) then place else place.dropLast

/-- Whether a place is the working directory, the root, or a directory above the working
directory. -/
def isBase (place : Place) : Bool :=
  place.all fun part => part == up || part.all (· == slash)

def systemDirectories : List Place :=
  [[[slash], Text.bytes "dev".toList], [[slash], Text.bytes "tmp".toList]]

/-- The file that is always empty. -/
def nullDevice : Place :=
  [[slash], Text.bytes "dev".toList, Text.bytes "null".toList]

def entry? (tree : FileTree) (place : Place) : Option FileEntry :=
  if isBase place || systemDirectories.contains place then some .directory
  else if place = nullDevice then some (.file [])
  else
    match tree.entries.lookup place with
    | some e => some e
    | none => if tree.entries.any fun e => place.isPrefixOf e.1 then some .directory else none

/-- The most bytes that a component of a path may have. -/
def longestName : Nat := 255

/-- The most bytes that a path may have. -/
def longestPath : Nat := 4095

def follow (tree : FileTree) : (place : Place) → (parts : List Bytes) → Except FileFault Place
  | place, [] => .ok place
  | place, part :: parts =>
    match tree.entry? place with
    | some .directory =>
      if longestName < part.length then .error .nameTooLong
      else tree.follow (if part = up then above place else place ++ [part]) parts
    | some (.file _) => .error .notDirectory
    | none => .error .missing

def locate (tree : FileTree) (p : Path) : Except FileFault Place :=
  match Utf8.encodeName p.text with
  | .error f => .error (.unencodable f)
  | .ok name =>
    if name.contains 0 then .error .nullInName
    else if longestPath < name.length then .error .nameTooLong
    else
      tree.follow (if name.head? = some slash then [[slash]] else [])
        (Path.components slash dot name)

def read (tree : FileTree) (p : Path) : Except FileFault Bytes :=
  match tree.locate p with
  | .error f => .error f
  | .ok place =>
    match tree.entry? place with
    | some (.file content) => .ok content
    | some .directory => .error .isDirectory
    | none => .error .missing

/-- Whether a place lies below the working directory. -/
def isBelow (place : Place) : Bool :=
  !isBase (place.take 1)

/-- The files below the working directory that are not the same in an earlier tree. -/
def changesSince (after before : FileTree) : List (Place × Bytes) :=
  after.entries.filterMap fun (place, e) =>
    match e with
    | .file content =>
      if before.entries.lookup place = some (.file content) || !isBelow place then none
      else some (place, content)
    | .directory => none

end FileTree

end SqlLayout
