import SqlLayout.Command.Arguments
import SqlLayout.Files.Tree
import SqlLayout.Toml

/-!
# Plans

A plan is what the command line and the configuration file together ask for. The file supplies
values, and an argument of the same meaning replaces them.
-/

namespace SqlLayout.Command

def configName : RawText :=
  Text.raw "sqlshape.toml".toList

/-- Values of placeholders as the command line and the configuration give them. -/
inductive RawBindings where
  | none
  | named (entries : List (RawText × RawText))
  /-- Values in order, nothing for an option that has lost its value. -/
  | ordered (values : List (Option RawText))

/-- The bindings with the halves in the values filled. A name with halves is that of no placeholder,
and an option that has lost its value stands for an empty list. -/
def RawBindings.fill (f : Filling) : RawBindings → Bindings
  | none => .none
  | named entries =>
    .named (entries.filterMap fun e => e.1.text?.map fun name => (name, .text (e.2.fill f)))
  | ordered values => .ordered (values.map fun v => v.elim (.list []) fun t => .text (t.fill f))

structure Plan where
  /-- The file to read, or standard input. -/
  inputFile : Option Path
  /-- The file to write, or standard output. -/
  outputFile : Option Path
  unit : Text
  maxLineLength : Nat
  /-- The comma style, nothing where its option has lost its value. -/
  commaStyle : Option CommaStyle
  dialect : Dialect
  bindings : RawBindings
  check : Bool
  debug : Bool
  verbose : Bool

inductive PlanFault where
  | badConfig
  /-- The configuration is not text. -/
  | undecodable (fault : DecodeFault)
  /-- The operating system does not look for the configuration. -/
  | badConfigFile (fault : FileFault) (path : Path)
  /-- An integer of the configuration has too many digits. -/
  | digits (fault : DigitFault)
  | badIndent (v : Value)
  | negativeConfigIndent (n : Int)
  | negativeIndent (n : Int)
  /-- The width of the indentation is no size that a text can have. -/
  | widthPastIndex
  /-- There is no memory for the indentation. -/
  | widthPastMemory
  /-- An option with a number has lost its value. -/
  | hollowNumber
  | negativeLineLength (n : Int)
  | badCommaStyle (v : Value)
  | unknownDialect (name : RawText)
  /-- The option of the dialect has lost its value. -/
  | hollowDialect
  | namelessParam (argument : RawText)
  | mixedParams

def PlanFault.message : PlanFault → Text
  | badConfig => "invalid config file".toList
  | undecodable fault => fault.message
  | badConfigFile fault path => fault.report path.text
  | digits fault => fault.message
  | badIndent v => "invalid indent in config: ".toList ++ v.literal
  | negativeConfigIndent n => "indent must be >= 0, got ".toList ++ Text.ofInt n
  | negativeIndent n => "--indent must be >= 0, got ".toList ++ Text.ofInt n
  | widthPastIndex => "cannot fit 'int' into an index-sized integer".toList
  | widthPastMemory => []
  | hollowNumber => "'<' not supported between instances of 'list' and 'int'".toList
  | negativeLineLength n => "max line length must be >= 0, got ".toList ++ Text.ofInt n
  | badCommaStyle v => "invalid comma_style in config: ".toList ++ v.literal
  | unknownDialect name => Dialect.unknownMessage name
  | hollowDialect => "'list' object has no attribute 'lower'".toList
  | namelessParam argument => "invalid param format (empty name): ".toList ++ argument.escaped
  | mixedParams => "cannot mix named and positional params".toList

/-- Whether a fault is one of the user's, which the command reports; any other one breaks the run
off. -/
def PlanFault.isReported : PlanFault → Bool
  | undecodable _ | badConfigFile _ _ | digits _ | widthPastIndex | widthPastMemory
  | hollowNumber | hollowDialect => false
  | _ => true

/-- The value of a placeholder on the command line, with its name where it has one. -/
def parseParam (t : RawText) : Except PlanFault (Option RawText × RawText) :=
  match Argument.atEquals t with
  | (_, none) => .ok (none, t)
  | (name, some value) => if name.isEmpty then .error (.namelessParam t) else .ok (some name, value)

namespace Arguments

/-- The path that an argument names; no argument and an empty one name none. -/
def path? : Option RawText → Option Path
  | none | some [] => none
  | some t => some (Path.ofRaw t)

/-- The file to read; a single dash means standard input. -/
def inputFile (a : Arguments) : Option Path :=
  if a.input = some (Text.raw ['-']) then none else path? a.input

/-- The configuration file: the one that is named, or the one beside the input. -/
def configFile (a : Arguments) : Path :=
  (path? a.config).getD ((a.inputFile.elim (Path.ofRaw []) Path.parent).child configName)

end Arguments

/-- The entries of a section of the configuration, none where it is no table. -/
def configSection (config : Toml.Entries) (name : String) : Toml.Entries :=
  match config.lookup name.toList with
  | some (.table entries) => entries
  | _ => []

/-- A fault about a value that its message shows; a value that cannot be shown is a fault of its
own. -/
def faultAbout (v : Value) (fault : Value → PlanFault) : PlanFault :=
  if v.isWritable then fault v else .digits .writing

inductive Indent where
  | spaces (count : Nat)
  | text (t : Text)

namespace Indent

def unit : Indent → Text
  | spaces count => List.replicate count ' '
  | text t => t

/-- The least number that no text has as its length. -/
def indexLimit : Nat := Nat.pow 2 63

/-- Spaces, as many as an integer says. From `memory` characters on there is no room for a text. -/
def ofWidth (memory : Nat) (negative : Int → PlanFault) (n : Int) : Except PlanFault Indent :=
  if n < 0 then .error (negative n)
  else if indexLimit ≤ n.toNat then .error .widthPastIndex
  else if memory ≤ n.toNat then .error .widthPastMemory
  else .ok (spaces n.toNat)

end Indent

def configIndent (memory : Nat) : Option Value → Except PlanFault Indent
  | none => .ok (.spaces 2)
  | some (.int n) => Indent.ofWidth memory .negativeConfigIndent n
  | some (.text t) => .ok (.text t)
  | some v => .error (faultAbout v .badIndent)

/-- The indentation with the number of spaces that the arguments ask for. -/
def widthFor (memory : Nat) (a : Arguments) (fromConfig : Indent) : Except PlanFault Indent :=
  match a.indent with
  | .absent => .ok fromConfig
  | .hollow => .error .hollowNumber
  | .value n => Indent.ofWidth memory .negativeIndent n

/-- The indentation. What the configuration and the arguments say must make sense even if something
else replaces it. -/
def indentFor (memory : Nat) (a : Arguments) (v : Option Value) : Except PlanFault Indent :=
  match configIndent memory v with
  | .error f => .error f
  | .ok fromConfig =>
    match widthFor memory a fromConfig with
    | .error f => .error f
    | .ok indent => .ok (if a.tabs then .text ['\t'] else indent)

def lineLengthFor (a : Arguments) (v : Option Value) : Except PlanFault Nat :=
  let check (n : Int) : Except PlanFault Nat :=
    if n < 0 then .error (.negativeLineLength n) else .ok n.toNat
  match a.maxLineLength, v with
  | .hollow, _ => .error .hollowNumber
  | .value n, _ => check n
  | .absent, some (.int n) => check n
  | .absent, _ => .ok 0

def configCommaStyle : Option Value → Except PlanFault CommaStyle
  | none => .ok .leading
  | some v => (CommaStyle.ofValue? v).elim (.error (faultAbout v .badCommaStyle)) .ok

def commaStyleFor (a : Arguments) (v : Option Value) : Except PlanFault (Option CommaStyle) :=
  match configCommaStyle v, a.commaStyle with
  | .error f, _ => .error f
  | .ok style, .absent => .ok (some style)
  | .ok _, .hollow => .ok none
  | .ok _, .value style => .ok (some style)

def configDialect : Option Value → Except PlanFault Text
  | none => .ok "sql".toList
  | some v => v.written.mapError .digits

def dialectNamed (name : RawText) : Except PlanFault Dialect :=
  (name.text?.bind Dialect.named?).elim (.error (.unknownDialect name)) .ok

def dialectFor (a : Arguments) (v : Option Value) : Except PlanFault Dialect :=
  match configDialect v, a.dialect with
  | .error f, _ => .error f
  | .ok name, .absent => dialectNamed name.raw
  | .ok _, .hollow => .error .hollowDialect
  | .ok _, .value name => dialectNamed name

structure Params where
  named : List (RawText × RawText) := []
  /-- Nothing for an option that has lost its value. -/
  ordered : List (Option RawText) := []

namespace Params

/-- Gives a name its value; a name that is there keeps its place. -/
def setNamed (p : Params) (name value : RawText) : Params :=
  if (p.named.lookup name).isSome then
    { p with named := p.named.map fun e => if e.1 = name then (name, value) else e }
  else { p with named := p.named ++ [(name, value)] }

def addEntries (p : Params) : Toml.Entries → Except PlanFault Params
  | [] => .ok p
  | (name, v) :: es =>
    match v.written with
    | .error f => .error (.digits f)
    | .ok value => (p.setNamed name.raw value.raw).addEntries es

def addArguments (p : Params) : List (Option RawText) → Except PlanFault Params
  | [] => .ok p
  | none :: ts => { p with ordered := p.ordered ++ [none] }.addArguments ts
  | some t :: ts =>
    match parseParam t with
    | .error f => .error f
    | .ok (none, value) => { p with ordered := p.ordered ++ [some value] }.addArguments ts
    | .ok (some name, value) => (p.setNamed name value).addArguments ts

/-- The values as bindings; names and order do not go together. -/
def bindings (p : Params) : Except PlanFault RawBindings :=
  match p.named, p.ordered with
  | [], [] => .ok .none
  | entries, [] => .ok (.named entries)
  | [], values => .ok (.ordered values)
  | _, _ => .error .mixedParams

end Params

def bindingsFor (a : Arguments) (config : Toml.Entries) : Except PlanFault RawBindings := do
  let fromConfig ← ({} : Params).addEntries (configSection config "params")
  let all ← fromConfig.addArguments a.params
  all.bindings

def Plan.make (memory : Nat) (a : Arguments) (config : Toml.Entries) : Except PlanFault Plan := do
  let format := configSection config "format"
  let setting (name : String) : Option Value := format.lookup name.toList
  let indent ← indentFor memory a (setting "indent")
  let maxLineLength ← lineLengthFor a (setting "max_line_length")
  let commaStyle ← commaStyleFor a (setting "comma_style")
  let dialect ← dialectFor a (setting "dialect")
  let bindings ← bindingsFor a config
  return {
    inputFile := a.inputFile, outputFile := Arguments.path? a.output, unit := indent.unit,
    maxLineLength, commaStyle, dialect, bindings, check := a.check, debug := a.debug,
    verbose := a.verbose }

/-- The layout options of a plan, once the halves in the values of placeholders are filled. Only a
comma style can be wanting. -/
def Plan.options (p : Plan) : Except SettingsFault (Filling → Options) :=
  match p.commaStyle with
  | none => .error (.unknownCommaStyle (.list []))
  | some commaStyle =>
    .ok fun f =>
      { unit := p.unit, maxLineLength := p.maxLineLength, bindings := p.bindings.fill f,
        commaStyle, dialect := p.dialect }

def Plan.inputName (p : Plan) : Text :=
  p.inputFile.elim "<stdin>".toList fun path => path.text.escaped

/-- The entries of a configuration file. A file that is not there has none. -/
def readConfig (path : Path) : Except FileFault Bytes → Except PlanFault Toml.Entries
  | .error .nameTooLong => .error (.badConfigFile .nameTooLong path)
  | .error _ => .ok []
  | .ok bytes =>
    match Utf8.decode bytes with
    | .error f => .error (.undecodable f)
    | .ok t =>
      match Toml.parse t with
      | .ok entries => .ok entries
      | .error .malformed => .error .badConfig
      | .error (.digits f) => .error (.digits f)

def Plan.load (memory : Nat) (a : Arguments) (read : Path → Except FileFault Bytes) :
    Except PlanFault Plan :=
  match readConfig a.configFile (read a.configFile) with
  | .error f => .error f
  | .ok config => Plan.make memory a config

end SqlLayout.Command
