import SqlLayout.Command.Integer
import SqlLayout.Layout.Options
import SqlLayout.Text.Raw

/-!
# Command line arguments

Arguments are first sorted into values and options: a long option may be cut to a start that only
it has, a value may be joined to its option, options of one letter may be joined to each other,
and a negative number is a value. Then they are taken in order. The first value is the input file;
whatever finds no place is refused in the end.
-/

namespace SqlLayout.Command

inductive Flag where
  | help
  | output
  | indent
  | tabs
  | maxLineLength
  | commaStyle
  | param
  | dialect
  | config
  | check
  | debug
  | verbose
deriving DecidableEq

namespace Flag

def all : List Flag :=
  [help, output, indent, tabs, maxLineLength, commaStyle, param, dialect, config, check, debug,
    verbose]

def names : Flag → List String
  | help => ["-h", "--help"]
  | output => ["-o", "--output"]
  | indent => ["--indent"]
  | tabs => ["--tabs"]
  | maxLineLength => ["--max-line-length"]
  | commaStyle => ["--comma-style"]
  | param => ["-p", "--param"]
  | dialect => ["--dialect"]
  | config => ["--config"]
  | check => ["--check"]
  | debug => ["--debug"]
  | verbose => ["-v", "--verbose"]

def takesValue : Flag → Bool
  | output | indent | maxLineLength | commaStyle | param | dialect | config => true
  | help | tabs | check | debug | verbose => false

/-- An option as messages name it. -/
def title (f : Flag) : Text :=
  (String.intercalate "/" f.names).toList

def spellings : List (RawText × Flag) :=
  all.flatMap fun f => f.names.map fun n => (Text.raw n.toList, f)

def named? (t : RawText) : Option Flag :=
  spellings.lookup t

end Flag

inductive UsageFault where
  | ambiguous (argument : RawText) (spellings : List RawText)
  | missingValue (flag : Flag)
  | notInteger (flag : Flag) (value : RawText)
  | notChoice (flag : Flag) (value : RawText) (choices : List Text)
  | ignoredValue (flag : Flag) (value : RawText)
  | unrecognized (arguments : List RawText)

def UsageFault.message : UsageFault → Text
  | ambiguous argument spellings =>
    "ambiguous option: ".toList ++ argument.escaped ++ " could match ".toList ++
      List.intercalate ", ".toList (spellings.map RawText.escaped)
  | missingValue flag => about flag ++ "expected one argument".toList
  | notInteger flag value => about flag ++ "invalid int value: ".toList ++ value.quoted
  | notChoice flag value choices =>
    about flag ++ "invalid choice: ".toList ++ value.quoted ++ " (choose from ".toList ++
      List.intercalate ", ".toList (choices.map Text.quoted) ++ [')']
  | ignoredValue flag value => about flag ++ "ignored explicit argument ".toList ++ value.quoted
  | unrecognized arguments =>
    "unrecognized arguments: ".toList ++
      List.intercalate [' '] (arguments.map RawText.escaped)
where
  /-- The option that a fault is about. -/
  about (flag : Flag) : Text :=
    "argument ".toList ++ flag.title ++ ": ".toList

/-- One argument, sorted by its form. -/
inductive Argument where
  | value (t : RawText)
  /-- Two dashes, behind which everything is a value. -/
  | dashes
  /-- An option, with the value joined to it; one dash tells whether it is written with a single
  dash. -/
  | option (flag : Flag) (joined : Option RawText) (oneDash : Bool)
  | unknown (t : RawText)

namespace Argument

def doubleDash : RawText := Text.raw ['-', '-']

/-- Whether a text is a negative number: digits, or a point with digits behind it. A line feed may
follow. -/
def isNegativeNumber (t : Text) : Bool :=
  let isDecimal (c : Char) : Bool := (Text.decimalValue? c).isSome
  match t with
  | '-' :: rest =>
    let body := if rest.getLast? = some '\n' then rest.dropLast else rest
    match body.dropWhile isDecimal with
    | [] => !body.isEmpty
    | '.' :: places => !places.isEmpty && places.all isDecimal
    | _ => false
  | _ => false

/-- The part of an argument in front of its first equals sign and the part behind it. -/
def atEquals (t : RawText) : RawText × Option RawText :=
  let name := t.takeWhile (· ≠ .char '=')
  (name, (t.drop name.length).tail?)

/-- The options that the start of a long option may mean. -/
def longMatches (t : RawText) : List (RawText × Argument) :=
  let (start, joined) := atEquals t
  (Flag.spellings.filter fun (name, _) => start.isPrefixOf name).map fun (name, flag) =>
    (name, .option flag joined false)

/-- The options that an argument with one dash may mean: its first letter with the rest as value. -/
def shortMatches (t : RawText) : List (RawText × Argument) :=
  (Flag.spellings.filter fun (name, _) => name == t.take 2).map fun (name, flag) =>
    (name, .option flag (some (t.drop 2)) true)

/-- Sorts an argument that stands before any double dash. -/
def classify (t : RawText) : Except UsageFault Argument :=
  let oneDash := !doubleDash.isPrefixOf t
  if t.head? ≠ some (.char '-') then .ok (.value t)
  else
    match Flag.named? t, atEquals t with
    | some flag, _ => .ok (.option flag none oneDash)
    | none, (name, joined) =>
      if t.length = 1 then .ok (.value t)
      else
        match joined, Flag.named? name with
        | some _, some flag => .ok (.option flag joined oneDash)
        | _, _ =>
          match if oneDash then shortMatches t else longMatches t with
          | [(_, a)] => .ok a
          | m :: ms => .error (.ambiguous t ((m :: ms).map Prod.fst))
          | [] =>
            .ok (if t.text?.any isNegativeNumber || t.contains (.char ' ') then .value t
              else .unknown t)

def classifyAll : List RawText → Except UsageFault (List Argument)
  | [] => .ok []
  | t :: ts =>
    if t = doubleDash then .ok (.dashes :: ts.map .value)
    else
      match classify t with
      | .error f => .error f
      | .ok a =>
        match classifyAll ts with
        | .error f => .error f
        | .ok as => .ok (a :: as)

end Argument

/-- What the arguments say about a setting. -/
inductive Given (α : Type) where
  /-- Nothing. -/
  | absent
  /-- The option is there, but has lost its value. -/
  | hollow
  | value (a : α)
deriving DecidableEq

structure Arguments where
  input : Option RawText := none
  output : Option RawText := none
  indent : Given Int := .absent
  tabs : Bool := false
  maxLineLength : Given Int := .absent
  commaStyle : Given CommaStyle := .absent
  /-- The values of placeholders, nothing for an option that has lost its value. -/
  params : List (Option RawText) := []
  dialect : Given RawText := .absent
  config : Option RawText := none
  check : Bool := false
  debug : Bool := false
  verbose : Bool := false

/-- Why no arguments are left to work on. -/
inductive Stop where
  | help
  | usage (fault : UsageFault)

namespace Arguments

def setSwitch (a : Arguments) : Flag → Except Stop Arguments
  | .help => .error .help
  | .tabs => .ok { a with tabs := true }
  | .check => .ok { a with check := true }
  | .debug => .ok { a with debug := true }
  | .verbose => .ok { a with verbose := true }
  | _ => .ok a

/-- Notes an option that has lost its value. An option that names a file then names none. -/
def setHollow (a : Arguments) : Flag → Arguments
  | .output => { a with output := none }
  | .indent => { a with indent := .hollow }
  | .maxLineLength => { a with maxLineLength := .hollow }
  | .commaStyle => { a with commaStyle := .hollow }
  | .param => { a with params := a.params ++ [none] }
  | .dialect => { a with dialect := .hollow }
  | .config => { a with config := none }
  | _ => a

/-- Notes the value of an option that has kept it. -/
def setText (a : Arguments) (flag : Flag) (value : RawText) : Except Stop Arguments :=
  match flag with
  | .output => .ok { a with output := some value }
  | .indent =>
    match value.text?.bind readInteger? with
    | some n => .ok { a with indent := .value n }
    | none => .error (.usage (.notInteger flag value))
  | .maxLineLength =>
    match value.text?.bind readInteger? with
    | some n => .ok { a with maxLineLength := .value n }
    | none => .error (.usage (.notInteger flag value))
  | .commaStyle =>
    match value.text?.bind CommaStyle.named? with
    | some style => .ok { a with commaStyle := .value style }
    | none =>
      .error (.usage (.notChoice flag value [CommaStyle.leading.name, CommaStyle.trailing.name]))
  | .param => .ok { a with params := a.params ++ [some value] }
  | .dialect => .ok { a with dialect := .value value }
  | .config => .ok { a with config := some value }
  | _ => .ok a

/-- Notes the value of an option. Two dashes are never a value: they are taken out. -/
def setValue (a : Arguments) (flag : Flag) (value : RawText) : Except Stop Arguments :=
  if value = Argument.doubleDash then .ok (a.setHollow flag) else a.setText flag value

def setSwitches (a : Arguments) : List Flag → Except Stop Arguments
  | [] => .ok a
  | f :: fs =>
    match a.setSwitch f with
    | .ok a => a.setSwitches fs
    | .error e => .error e

/-- An option with text joined to it is an option with its value, or a switch with more options of
one letter behind it: the switches in front, and the last option with the value joined to it. -/
def cluster (oneDash : Bool) (flag : Flag) :
    (joined : RawText) → Except UsageFault (List Flag × Flag × Option RawText)
  | [] => if flag.takesValue then .ok ([], flag, some []) else .error (.ignoredValue flag [])
  | c :: cs =>
    if flag.takesValue then .ok ([], flag, some (c :: cs))
    else
      match if oneDash then Flag.named? [.char '-', c] else none with
      | none => .error (.ignoredValue flag (c :: cs))
      | some next =>
        if cs.isEmpty then .ok ([flag], next, none)
        else
          match cluster oneDash next cs with
          | .ok (flags, last, joined) => .ok (flag :: flags, last, joined)
          | .error f => .error f

/-- The options that one argument stands for: switches, and the last option with its value. -/
def expand (oneDash : Bool) (flag : Flag) :
    (joined : Option RawText) → Except UsageFault (List Flag × Flag × Option RawText)
  | none => .ok ([], flag, none)
  | some t => cluster oneDash flag t

/-- Takes the arguments in order. The input file is open as long as no value has been taken for
it; what finds no place is kept in `extra`. -/
def take (a : Arguments) (inputOpen : Bool) (extra : List RawText) :
    List Argument → Except Stop Arguments
  | [] => if extra.isEmpty then .ok a else .error (.usage (.unrecognized extra))
  | .unknown t :: rest => a.take inputOpen (extra ++ [t]) rest
  | .value t :: rest =>
    if inputOpen then
      match rest with
      | .dashes :: rest => { a with input := some t }.take false extra rest
      | rest => { a with input := some t }.take false extra rest
    else a.take false (extra ++ [t]) rest
  | .dashes :: rest =>
    if inputOpen then
      match rest with
      | .value t :: rest => { a with input := some t }.take false extra rest
      | rest => a.take false extra rest
    else a.take false (extra ++ [Argument.doubleDash]) rest
  | .option flag joined oneDash :: rest =>
    match expand oneDash flag joined with
    | .error f => .error (.usage f)
    | .ok (switches, last, joined) =>
      match last.takesValue, joined, rest with
      | false, _, rest =>
        match a.setSwitches (switches ++ [last]) with
        | .error e => .error e
        | .ok a => a.take inputOpen extra rest
      | true, some value, rest =>
        match a.setSwitches switches with
        | .error e => .error e
        | .ok a =>
          match a.setValue last value with
          | .error e => .error e
          | .ok a => a.take inputOpen extra rest
      | true, none, .value value :: rest =>
        match a.setSwitches switches with
        | .error e => .error e
        | .ok a =>
          match a.setValue last value with
          | .error e => .error e
          | .ok a => a.take inputOpen extra rest
      | true, none, _ => .error (.usage (.missingValue last))

/-- What a command line says. -/
def parse (ts : List RawText) : Except Stop Arguments :=
  match Argument.classifyAll ts with
  | .error f => .error (.usage f)
  | .ok as => ({} : Arguments).take true [] as

end Arguments

end SqlLayout.Command
