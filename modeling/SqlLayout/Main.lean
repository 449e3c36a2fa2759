import SqlLayout.Command.Run

/-!
# The command

Reads the files that a run needs, runs it, and carries out what it decides.
-/

namespace SqlLayout.Command

/-- Why the system refuses a file: code 21 is that of a directory in place of a file, and 36 that of
a name that is too long. -/
def faultOf : IO.Error → FileFault
  | .inappropriateType _ code _ => if code = 21 ∨ code + 21 = 0 then .isDirectory else .notDirectory
  | .invalidArgument _ code _ => if code = 36 ∨ code + 36 = 0 then .nameTooLong else .missing
  | _ => .missing

/-- The name of a file for the system, which takes no halves of surrogate pairs here. -/
def diskName (p : Path) : String :=
  String.ofList p.text.escaped

def readDisk (p : Path) : IO (Except FileFault Bytes) := do
  try
    let bytes ← IO.FS.readBinFile (diskName p)
    return .ok bytes.toList
  catch e => return .error (faultOf e)

/-- Writes a file on disk, which is emptied first; gives the message if that fails. -/
def writeDisk (p : Path) (t : RawText) : IO (Option Text) := do
  try
    let file ← IO.FS.Handle.mk (diskName p) .write
    match Utf8.encode t with
    | .error f => return some f.message
    | .ok bytes =>
      file.write ⟨bytes.toArray⟩
      return none
  catch e => return some ((faultOf e).report p.text)

/-- All of standard input. -/
partial def readStdin : IO Bytes := do
  let stdin ← IO.getStdin
  let rec loop (read : ByteArray) : IO ByteArray := do
    let chunk ← stdin.read 65536
    if chunk.isEmpty then return read else loop (read ++ chunk)
  return (← loop ByteArray.empty).toList

/-- Prints a line about a run that could not be finished, and gives its exit code. -/
def fail (message : Text) : IO UInt32 := do
  IO.eprintln (String.ofList message)
  return 1

/-- Writes the output of a run, and gives its exit code. -/
def finish (outcome : Outcome) : IO UInt32 := do
  IO.eprint (String.ofList outcome.stderr)
  (← IO.getStdout).write ⟨outcome.stdout.toArray⟩
  if let some (path, text) := outcome.written then
    if let some message ← writeDisk path text then
      return ← fail message
  match outcome.ending with
  | .exit code => return code.toUInt32
  | .unplanned f => fail f.message
  | .undecodable f => fail f.message
  | .badSettings f => fail f.message
  | .unresolved f => fail f.message
  | .badFile f path => fail (f.report path.text)
  | .unencodable f => fail f.message

/-- The number of characters from which on this command does not try to indent a line. -/
def memory : Nat := Nat.pow 2 35

end SqlLayout.Command

open SqlLayout SqlLayout.Command in
def main (args : List String) : IO UInt32 := do
  let argv := args.map fun arg => Text.raw arg.toList
  let files ← (filesToRead argv).mapM fun p => do return (p, ← readDisk p)
  let stdin ← if readsStdin argv then readStdin else pure []
  finish (run memory argv (fun p => (files.lookup p).getD (.error .missing)) stdin)
