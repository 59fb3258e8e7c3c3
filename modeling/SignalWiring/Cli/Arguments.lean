/-
Arguments of the command line.

An argument is an option when it starts with a dash and names one: exactly, by a beginning that only one long option has,
with a value after `=`, or as a dash and a row of one-letter options. An argument that starts with a dash and names none
is unknown, unless it is a lone dash, a negative number or holds a blank. After `--` nothing is an option.

Options are acted upon from left to right, so that `--help` and `--version` end the reading, as does a value that an
option cannot take. What is missing or left over is told at the end.
-/
import SignalWiring.Log.Format
import SignalWiring.Report.Style
import SignalWiring.Text.DecimalDigit

namespace SignalWiring.Cli

/-! ## Options -/

/-- what an option sets or asks for -/
inductive Switch where
  | help
  | out
  | config
  | format
  | logLevel
  | logFormat
  | version
  deriving DecidableEq, Repr, Inhabited

namespace Switch

/-- every name of an option -/
def names : List (String × Switch) :=
  [("-h", .help), ("--help", .help), ("--out", .out), ("--config", .config), ("--format", .format),
   ("--log-level", .logLevel), ("--log-format", .logFormat), ("--version", .version)]

/-- the names of an option in messages -/
def label (s : Switch) : String := Text.join "/" ((names.filter fun n => n.2 == s).map Prod.fst)

def takesValue : Switch → Bool
  | .help | .version => false
  | _ => true

end Switch

/-- what is attached to the name of an option: a text after `=`, or the rest of a row of letters -/
inductive Attached where
  | nothing
  | value (s : String)
  | letters (s : List Char)
  deriving DecidableEq, Repr, Inhabited

inductive Word where
  | operand (s : String)
  | switch (s : Switch) (attached : Attached)
  | unknown (s : String)
  /-- `--` -/
  | divider
  deriving DecidableEq, Repr, Inhabited

/-! ## Telling options from operands -/

/-- a dash and digits, perhaps with a point before the last of them -/
def isNegativeNumber : List Char → Bool
  | '-' :: rest =>
    match rest.dropWhile Text.isDecimalDigit with
    | [] => !rest.isEmpty
    | '.' :: after => !after.isEmpty && after.all Text.isDecimalDigit
    | _ => false
  | _ => false

/-- the text before the first `=` and the text after it, if there is one -/
def splitValue (cs : List Char) : List Char × Option (List Char) :=
  match cs.dropWhile (· != '=') with
  | _ :: after => (cs.takeWhile (· != '='), some after)
  | [] => (cs, none)

/-- the options that a text may stand for, by their names -/
def candidates (cs : List Char) : List (String × Word) :=
  match cs with
  | '-' :: '-' :: _ =>
    let (beginning, value) := splitValue cs
    let attached : Attached := match value with
      | some v => .value (String.ofList v)
      | none => .nothing
    (Switch.names.filter fun n => beginning.isPrefixOf n.1.toList).map fun n => (n.1, .switch n.2 attached)
  | '-' :: c :: rest =>
    (Switch.names.filter fun n => n.1.toList = ['-', c]).map fun n => (n.1, .switch n.2 (.letters rest))
  | _ => []

/-- the option that is named exactly, with or without a value -/
def named? (s : String) : Option Word :=
  match Switch.names.lookup s with
  | some switch => some (.switch switch .nothing)
  | none =>
    match splitValue s.toList with
    | (name, some value) =>
      (Switch.names.lookup (String.ofList name)).map fun switch => .switch switch (.value (String.ofList value))
    | (_, none) => none

/-- what an argument is, or why that cannot be told -/
def classify (s : String) : Except String Word :=
  if s.toList.head? = some '-' ∧ 1 < s.length then
    match named? s with
    | some word => .ok word
    | none =>
      match candidates s.toList with
      | [(_, word)] => .ok word
      | [] =>
        if isNegativeNumber s.toList || s.toList.contains ' ' then .ok (.operand s) else .ok (.unknown s)
      | many =>
        let names := Text.join ", " (many.map Prod.fst)
        .error s!"ambiguous option: {s} could match {names}"
  else .ok (.operand s)

def classifyAll : List String → Except String (List Word)
  | [] => .ok []
  | s :: rest =>
    if s = "--" then .ok (.divider :: rest.map .operand)
    else (classify s).bind fun w => (classifyAll rest).map (w :: ·)

/-! ## Reading -/

/-- what a run of the command is asked for -/
structure Request where
  source : String
  out : Option String := none
  config : Option String := none
  style : Report.Style := .console
  level : String := "WARNING"
  logFormat : Log.Format := .console
  deriving DecidableEq, Repr

/-- the name of the folder below the sources that fragments go to by default -/
def standardOut : String := "Generated"

def Request.outFolder (r : Request) : Path :=
  match r.out with
  | some s => Path.ofString s
  | none => Path.ofString r.source / standardOut

inductive Asked where
  | run (r : Request)
  | help
  | version
  /-- the arguments are wrong -/
  | refused (message : String)
  deriving DecidableEq, Repr

/-- what has been read so far -/
structure Reading where
  source : Option String := none
  /-- the other parts of the request -/
  rest : Request := { source := "" }
  /-- what is left over, last first -/
  extras : List String := []
  /-- the option whose value comes next -/
  awaiting : Option Switch := none
  /-- the last argument was the source -/
  atSource : Bool := false

def refuse (s : Switch) (reason : String) : Asked := .refused s!"argument {s.label}: {reason}"

/-- the refusal of what is attached to an option without a value -/
def refuseAttached (s : Switch) (attached : List Char) : Asked :=
  refuse s s!"ignored explicit argument {Text.quote (String.ofList attached)}"

def refuseChoice (s : Switch) (value : String) (choices : List String) : Asked :=
  let list := Text.join ", " (choices.map Text.quote)
  refuse s s!"invalid choice: {Text.quote value} (choose from {list})"

/-- the letters after `-h`: more of the same, up to one that is no option -/
def helpLetters : List Char → Asked
  | [] => .help
  | c :: rest =>
    if c = '-' then refuseAttached .help (c :: rest)
    else if c = 'h' then
      match rest with
      | '=' :: value => refuseAttached .help value
      | _ => helpLetters rest
    else .help

/-- an option without a value -/
def askPlain (s : Switch) (attached : Attached) : Asked :=
  match attached with
  | .value v => refuseAttached s v.toList
  | .letters cs => helpLetters cs
  | .nothing => if s = .help then .help else .version

def setValue (r : Request) (s : Switch) (value : String) : Except Asked Request :=
  match s with
  | .out => .ok { r with out := some value }
  | .config => .ok { r with config := some value }
  | .logLevel => .ok { r with level := value }
  | .format =>
    let styles := [Report.Style.console, .plain]
    match styles.find? fun x => x.label == value with
    | some x => .ok { r with style := x }
    | none => .error (refuseChoice s value (styles.map Report.Style.label))
  | .logFormat =>
    match Log.Format.ofLabel? value with
    | some f => .ok { r with logFormat := f }
    | none => .error (refuseChoice s value ([Log.Format.console, .json].map Log.Format.label))
  | .help | .version => .ok r

/-- one more argument, which may end the reading -/
def step (r : Reading) (w : Word) : Except Asked Reading :=
  match r.awaiting, w with
  | some s, .operand v => (setValue r.rest s v).map fun q => { r with rest := q, awaiting := none }
  | some s, _ => .error (refuse s "expected one argument")
  | none, .unknown s => .ok { r with extras := s :: r.extras, atSource := false }
  | none, .switch s attached =>
    if s.takesValue then
      match attached with
      | .value v => (setValue r.rest s v).map fun q => { r with rest := q, atSource := false }
      | _ => .ok { r with awaiting := some s, atSource := false }
    else .error (askPlain s attached)
  | none, .operand s =>
    match r.source with
    | none => .ok { r with source := some s, atSource := true }
    | some _ => .ok { r with extras := s :: r.extras, atSource := false }
  | none, .divider =>
    -- a divider next to the source belongs to it
    if r.source.isNone || r.atSource then .ok { r with atSource := false }
    else .ok { r with extras := "--" :: r.extras }

/-- what has been asked for at the end of the arguments -/
def finish (r : Reading) : Asked :=
  match r.awaiting, r.source with
  | some s, _ => refuse s "expected one argument"
  | none, none => .refused "the following arguments are required: src"
  | none, some source =>
    if r.extras.isEmpty then .run { r.rest with source := source }
    else
      let extras := Text.join " " r.extras.reverse
      .refused s!"unrecognized arguments: {extras}"

def ask (arguments : List String) : Asked :=
  match classifyAll arguments with
  | .error message => .refused message
  | .ok words =>
    match words.foldlM step {} with
    | .error asked => asked
    | .ok r => finish r

end SignalWiring.Cli
