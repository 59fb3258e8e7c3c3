/-
Faults: why an operation of this library refuses.

A `Fault` is a cause, not a text; `Fault.message` gives the wording in one place. `Invalid` are the causes that come from
values that break an invariant. The `for…` functions build the faults that check their own fields first, so that the
fault which arises may be the one of the check; `Fault.raised` is the one that arises.
-/
import SignalWiring.Decimal.Shortest
import SignalWiring.FileTree
import SignalWiring.Text.Quoted
import SignalWiring.Text.Utf8

namespace SignalWiring

/-! ## Values that break an invariant -/

/-- an invariant that a value breaks -/
inductive Invalid where
  /-- a field that must hold something is empty -/
  | empty (field : String)
  | lineNotPositive (line : Int)
  | columnNegative (column : Int)
  | suffixMissing (name suffix : String)
  | eventNotPrefix (event handler : String)
  | repeatedParameter (handler : String)
  | unnamedParameter (handler : String)
  | otherContext (context artifact : String)
  | recordAndDiagnostic
  | identifierNotPositive (id : Int)
  | unnamedPath
  | hintIsArtifact (artifact : String)
  | sizesDiffer (names ids : Nat)
  | noReverse (name : String) (id : Int)
  | originNotDiscovered (name : String)
  | repeatedOutput (hint : String)
  | unknownLevel (name : String)
  | unknownLogFormat (name : String)
  /-- a number with more than so many decimal digits is to be written out -/
  | tooManyDigits (limit : Nat)
  /-- a number with more decimal digits than the limit is to be read -/
  | tooLongNumeral (limit digits : Nat)
  /-- a refusal in words of its own -/
  | other (text : String)
  deriving DecidableEq, Repr, Inhabited

/-- wording of a number that is not written out -/
def Invalid.digitsMessage (limit : Nat) : String :=
  s!"Exceeds the limit ({limit} digits) for integer string conversion; use sys.set_int_max_str_digits() to increase the limit"

/-- a wording that shows a number, unless the number is too long -/
def Invalid.showing (n : Int) (text : String) : String :=
  if Decimal.overlong Decimal.maxDigits n then digitsMessage Decimal.maxDigits else text

/-- wording of a broken invariant -/
def Invalid.message : Invalid → String
  | .empty field => s!"{field} must not be empty"
  | .lineNotPositive line => showing line s!"line must be > 0, got {line}"
  | .columnNegative column => showing column s!"column must be >= 0, got {column}"
  | .suffixMissing name suffix => s!"'{name}' does not end with '{suffix}'"
  | .eventNotPrefix event handler => s!"event_name '{event}' must prefix handler_name '{handler}'"
  | .repeatedParameter handler => s!"duplicate parameter names in {handler}"
  | .unnamedParameter handler => s!"empty parameter name in {handler}"
  | .otherContext context artifact => s!"context artifact_id '{context}' != '{artifact}'"
  | .recordAndDiagnostic => "outcome cannot carry both a record and a diagnostic"
  | .identifierNotPositive id => showing id s!"event_id must be > 0, got {id}"
  | .unnamedPath => "path must name a file"
  | .hintIsArtifact artifact => s!"hint_name must differ from artifact_id '{artifact}'"
  | .sizesDiffer names ids => s!"table sizes differ: {names} names, {ids} ids"
  | .noReverse name id => showing id s!"'{name}' -> {id} has no matching reverse entry"
  | .originNotDiscovered name => s!"origin recorded for non-discovered event '{name}'"
  | .repeatedOutput hint => s!"duplicate output name '{hint}'"
  | .unknownLevel name => s!"unknown log level {Text.quote name}"
  | .unknownLogFormat name => s!"fmt must be 'console' or 'json', got {Text.quote name}"
  | .tooManyDigits limit => digitsMessage limit
  | .tooLongNumeral limit digits =>
    s!"Exceeds the limit ({limit} digits) for integer string conversion: value has {digits} digits; " ++
      "use sys.set_int_max_str_digits() to increase the limit"
  | .other text => text

/-! ## Faults -/

/-- why an operation refuses -/
inductive Fault where
  /-- a source artifact could not be read or turned into a syntax tree -/
  | unreadable (path : Path) (reason : String)
  /-- a setting is unknown or has a value that it cannot have -/
  | setting (key reason : String)
  /-- two handlers have the same event name, or one has the name of a built-in event -/
  | duplicateEvent (event first second : String)
  /-- the registry refused an entry -/
  | rejected (artifact reason : String)
  /-- two artifacts of one run have the same file name -/
  | duplicateArtifact (artifact : String)
  /-- a fault of the generator in words of its own -/
  | general (text : String)
  /-- a value breaks an invariant -/
  | invalid (cause : Invalid)
  /-- bytes that are not UTF-8 -/
  | undecodable (cause : Text.Utf8.Fault)
  /-- something that must be there is not; the text says what must not be missing -/
  | absent (what : String)
  /-- a look-up of a key that is not there -/
  | unknownKey (key : String)
  /-- a value of a type that the operation does not take -/
  | mistyped
  /-- a value that lacks the member asked for -/
  | memberless
  /-- a failure inside an extractor -/
  | internal (text : String)
  /-- the source root is no folder -/
  | rootNotFolder (root : Path)
  /-- the file system refused -/
  | system (cause : SystemFault) (path : Path)
  deriving DecidableEq, Inhabited

namespace Fault

def message : Fault → String
  | .unreadable path reason => s!"Cannot process {path.toString}: {reason}"
  | .setting key reason => s!"Invalid configuration '{key}': {reason}"
  | .duplicateEvent event first second =>
    if first = second then s!"Duplicate event name '{event}' declared twice in '{first}'"
    else s!"Duplicate event name '{event}' declared in '{first}' and '{second}'"
  | .rejected artifact reason => s!"Registry rejected '{artifact}': {reason}"
  | .duplicateArtifact artifact => s!"Duplicate artifact_id '{artifact}': source file names must be unique"
  | .general text => text
  | .invalid cause => cause.message
  | .undecodable cause => cause.message
  | .absent what => what
  | .unknownKey key => key
  | .mistyped => ""
  | .memberless => ""
  | .internal text => text
  | .rootNotFolder root => s!"source root is not a directory: {root.toString}"
  | .system cause path => s!"{cause.text}: {Text.quote path.toString}"

/-- a fault of the generator itself, as opposed to one of a value or of the machine below -/
def isOwn : Fault → Bool
  | .unreadable .. | .setting .. | .duplicateEvent .. | .rejected .. | .duplicateArtifact _ | .general _ => true
  | _ => false

/-- a fault that lies in a value or in bytes -/
def isValue : Fault → Bool
  | .invalid _ | .undecodable _ => true
  | _ => false

def emptyField (field : String) : Fault := .invalid (.empty field)

/-! ## Faults with checked fields -/

/-- the fault of an artifact that could not be read or parsed -/
def forUnreadable (path : Option Path) (reason : String) : Except Fault Fault :=
  match path with
  | none => .error (.absent "path must not be None")
  | some p => if reason = "" then .error (emptyField "reason") else .ok (.unreadable p reason)

def forSetting (key reason : String) : Except Fault Fault :=
  if key = "" then .error (emptyField "key")
  else if reason = "" then .error (emptyField "reason")
  else .ok (.setting key reason)

def forDuplicateEvent (event first second : String) : Except Fault Fault :=
  if event = "" then .error (emptyField "event_name")
  else if first = "" then .error (emptyField "first_artifact")
  else if second = "" then .error (emptyField "second_artifact")
  else .ok (.duplicateEvent event first second)

/-- the fault of an entry that the registry refuses -/
def forRejected (artifact reason : String) : Except Fault Fault :=
  if reason = "" then .error (emptyField "reason") else .ok (.rejected artifact reason)

def forDuplicateArtifact (artifact : String) : Except Fault Fault :=
  if artifact = "" then .error (emptyField "artifact_id") else .ok (.duplicateArtifact artifact)

/-- the fault that arises: the one that was built, or the one of a check that failed on the way -/
def raised : Except Fault Fault → Fault
  | .ok fault => fault
  | .error fault => fault

end Fault

end SignalWiring
