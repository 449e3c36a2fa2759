import SqlLayout.Command.Plan
import SqlLayout.Command.Usage
import SqlLayout.Report
import SqlLayout.Token.Listing

/-!
# Running the command

`run` is the command as a function: what it prints, what it writes and how it ends, given the
arguments, a way to read files, and standard input. Nothing is written before everything has been
read and formatted. `runIn` runs it in a file tree. Both are given the number of characters from which
on there is no memory for a text.

The layout runs on texts, so it runs with the halves in the values of placeholders filled. It runs
with two fillings that agree nowhere, which show where its result has halves. Such a result has no
bytes; a file for it is opened, and thereby emptied, before that is found out.
-/

namespace SqlLayout.Command

inductive Ending where
  | exit (code : Nat)
  /-- There is no plan, for a reason that is not reported. -/
  | unplanned (fault : PlanFault)
  /-- The input is not text. -/
  | undecodable (fault : DecodeFault)
  /-- The plan makes no layout options. -/
  | badSettings (fault : SettingsFault)
  /-- A placeholder has no text. -/
  | unresolved (fault : BindingFault)
  /-- The input has no name to read it by, or the output cannot be written. -/
  | badFile (fault : FileFault) (path : Path)
  /-- The formatted text has no bytes. -/
  | unencodable (fault : EncodeFault)

structure Outcome where
  ending : Ending
  stdout : Bytes := []
  stderr : Text := []
  /-- The file to write and its text. -/
  written : Option (Path × RawText) := none

/-- A line of the log: how weighty it is, who says it, and what. -/
structure LogLine where
  weight : String
  speaker : String
  message : Text

def LogLine.text (l : LogLine) : Text :=
  ['['] ++ l.weight.toList ++ "] ".toList ++ l.speaker.toList ++ ": ".toList ++ l.message ++ ['\n']

/-- A remark of the layout as a line of the log. -/
def noteLine : Note → LogLine
  | .inlineBlock index =>
    ⟨"DEBUG", "sqlshape.inline", "inline block at token ".toList ++ Text.ofNat index⟩
  | .unclosedBracket index =>
    ⟨"DEBUG", "sqlshape.inline", "no matching close for paren at token ".toList ++ Text.ofNat index⟩
  | .wrapped limit before =>
    ⟨"DEBUG", "sqlshape.layout",
      "line would exceed ".toList ++ Text.ofNat limit ++ " chars before ".toList ++ before.quoted ++
        ", wrapping".toList⟩

namespace Plan

/-- Lines of the log as far as they are wanted. -/
def log (p : Plan) (ls : List LogLine) : Text :=
  if p.verbose then ls.flatMap LogLine.text else []

/-- A text with the line feed that ends it, if there is any. -/
def endLine (t : Text) : Text :=
  if t.isEmpty then [] else t ++ ['\n']

/-- What a source has to be for a check to find nothing to do. -/
def current (source : Text) : Text :=
  if source.isAllBlank then [] else Text.dropEndWhile (· == '\n') source ++ ['\n']

/-- Delivers the formatted text, or only compares it with the source. -/
def deliver (p : Plan) (source : Text) (result : RawText) (stderr : Text) : Outcome :=
  if p.check then
    if (current source).raw = result then { ending := .exit 0, stderr }
    else
      let line : LogLine := ⟨"INFO", "sqlshape.cli", p.inputName ++ " would be reformatted".toList⟩
      { ending := .exit 1, stderr := stderr ++ p.log [line] }
  else
    match p.outputFile with
    | some path => { ending := .exit 0, stderr, written := some (path, result) }
    | none =>
      match Utf8.encode result with
      | .ok stdout => { ending := .exit 0, stderr, stdout }
      | .error f => { ending := .unencodable f, stderr }

def layoutTokens (p : Plan) (o : Filling → Options) (source : Text) (tokens : List Token)
    (listing : Text) : Outcome :=
  let (draft, failure) := Draft.run (o RawText.first) {} 0 tokens
  let stderr := listing ++ p.log (draft.notes.reverse.map noteLine)
  match failure with
  | some (.unresolved fault) => { ending := .unresolved fault, stderr }
  | some (.badToken fault token index) =>
    let report : TokenReport := ⟨fault.message, token, index⟩
    { ending := .exit 1, stderr := stderr ++ endLine (report.text (some source) p.inputName) }
  | none =>
    let line : LogLine :=
      ⟨"DEBUG", "sqlshape.cli",
        "formatted ".toList ++ Text.ofNat tokens.length ++ " tokens from ".toList ++ p.inputName⟩
    let (other, _) := Draft.run (o RawText.second) {} 0 tokens
    p.deliver source (RawText.ofFillings (endLine draft.text) (endLine other.text))
      (stderr ++ p.log [line])

def formatSource (p : Plan) (source : Text) : Outcome :=
  match tokenize p.dialect source with
  | .error e => { ending := .exit 1, stderr := endLine (e.report.text source p.inputName) }
  | .ok tokens =>
    let listing := if p.debug then Token.listing tokens else []
    match p.options with
    | .error f => { ending := .badSettings f, stderr := listing }
    | .ok o => p.layoutTokens o source tokens listing

/-- Formats what a file or standard input holds. -/
def formatInput (p : Plan) (input : Except FileFault Bytes) : Outcome :=
  match input with
  | .error f =>
    if f.code?.isNone then { ending := .badFile f (p.inputFile.getD (.ofRaw [])) }
    else
      { ending := .exit 2,
        stderr :=
          "error: cannot read ".toList ++ p.inputName ++ ": ".toList ++ f.message ++ ['\n'] }
  | .ok bytes =>
    match bytes.toText with
    | .error f => { ending := .undecodable f }
    | .ok source => p.formatSource source

end Plan

def runArguments (memory : Nat) (a : Arguments) (read : Path → Except FileFault Bytes)
    (stdin : Bytes) : Outcome :=
  match Plan.load memory a read with
  | .error f =>
    if f.isReported then { ending := .exit 2, stderr := "error: ".toList ++ f.message ++ ['\n'] }
    else { ending := .unplanned f }
  | .ok plan => plan.formatInput (plan.inputFile.elim (.ok stdin) read)

def run (memory : Nat) (argv : List RawText) (read : Path → Except FileFault Bytes)
    (stdin : Bytes) : Outcome :=
  match Arguments.parse argv with
  | .error .help => { ending := .exit 0, stdout := help.bytes }
  | .error (.usage f) => { ending := .exit 2, stderr := usage ++ f.line ++ ['\n'] }
  | .ok a => runArguments memory a read stdin

def filesToRead (argv : List RawText) : List Path :=
  match Arguments.parse argv with
  | .error _ => []
  | .ok a => a.configFile :: a.inputFile.toList

def readsStdin (argv : List RawText) : Bool :=
  match Arguments.parse argv with
  | .error _ => false
  | .ok a => a.inputFile.isNone

end SqlLayout.Command
