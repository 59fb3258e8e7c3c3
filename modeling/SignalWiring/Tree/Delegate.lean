/-
Delegates: what a delegate declaration means.

An unmarked delegate means nothing. A marked one is either a handler or a problem, never both: it must be free of
errors, be named for an event with the handler suffix, and have named, pairwise different parameters.
-/
import SignalWiring.Diagnostic
import SignalWiring.Handler
import SignalWiring.Tree.Attribute
import SignalWiring.Tree.Walk

namespace SignalWiring

inductive Outcome where
  | ignored
  | record (handler : Handler)
  | problem (diagnostic : Diagnostic)
  deriving DecidableEq, Inhabited

namespace Outcome

/-- an outcome from what may be set; both at once is refused -/
def make (record : Option Handler) (problem : Option Diagnostic) : Except Fault Outcome :=
  match record, problem with
  | some _, some _ => .error (.invalid .recordAndDiagnostic)
  | some h, none => .ok (.record h)
  | none, some d => .ok (.problem d)
  | none, none => .ok .ignored

def record? : Outcome → Option Handler
  | .record h => some h
  | _ => none

def problem? : Outcome → Option Diagnostic
  | .problem d => some d
  | _ => none

end Outcome

/-- the first text that occurred before -/
def firstRepeated : (seen : List String) → List String → Option String
  | _, [] => none
  | seen, n :: rest => if seen.contains n then some n else firstRepeated (n :: seen) rest

/-- what marks a delegate as a handler, and how handlers end; neither is empty -/
@[ext]
structure Marking where
  marker : String
  suffix : String
  marker_ne : marker ≠ ""
  suffix_ne : suffix ≠ ""

instance : DecidableEq Marking := fun _ _ => decidable_of_iff _ Marking.ext_iff.symm

/-- a marking from texts that may be empty -/
def Marking.make (marker suffix : String) : Except Fault Marking :=
  if hm : marker = "" then .error (Fault.emptyField "marker_attribute")
  else if hs : suffix = "" then .error (Fault.emptyField "handler_suffix")
  else .ok ⟨marker, suffix, hm, hs⟩

namespace Tree

/-- where a node starts in the file at `path` -/
def location (t : Tree) (path : Option Path) : Except Fault Location := Location.ofPoint path t.row t.column

/-- the name of a parameter: its name field, or else its last identifier; empty when it has none -/
def parameterName (parameter : Tree) : Except Fault String := do
  let name ← parameter.fieldSource "name"
  if name ≠ "" then return name
  match (parameter.children.filter fun c => c.kind == "identifier").getLast? with
  | none => return ""
  | some c => c.source

def parameterNames (list : Tree) : Except Fault (List String) :=
  (list.children.filter fun c => c.kind == "parameter" || c.kind == "parameter_array").mapM parameterName

end Tree

namespace Marking

/-- the marker as it is written in source -/
def shortMarker (m : Marking) : String :=
  match Text.dropSuffix? "Attribute".toList m.marker.toList with
  | some cs => String.ofList cs
  | none => m.marker

/-- a marked delegate that cannot be resolved -/
def unresolved (path : Path) (location : Location) (name reason : String) : Except Fault Outcome :=
  (Diagnostic.make .unresolvedSymbol .warning s!"{reason}, skipped" path.name (some location)
    (if name = "" then none else some name)).map Outcome.problem

/-- a marked delegate that is not written as it must be -/
def malformed (path : Path) (location : Location) (name reason : String) : Except Fault Outcome :=
  (Diagnostic.make .malformedDeclaration .warning s!"{reason}, skipped" path.name (some location)
    (some name)).map Outcome.problem

/-- the delegate's name is an event name with the suffix after it -/
def namesEvent (m : Marking) (name : String) : Bool := m.suffix.toList.isSuffixOf name.toList && name ≠ m.suffix

/-- what a marked delegate called `name` with a list of parameters means -/
def readSignature (m : Marking) (path : Path) (location : Location) (name : String) (parameters : Tree) :
    Except Fault Outcome := do
  let names ← parameters.parameterNames
  if names.contains "" then unresolved path location name s!"parameter of '{name}' has no name"
  else
    match firstRepeated [] names with
    | some repeated => malformed path location name s!"delegate '{name}' declares parameter '{repeated}' twice"
    | none => (Handler.ofName name m.suffix names (some location)).map Outcome.record

/-- what a delegate declaration in the file at `path` means -/
def analyze (m : Marking) (node : Option Tree) (path : Option Path) : Except Fault Outcome :=
  match node, path with
  | none, _ => .error (.absent "node must not be None")
  | some _, none => .error (.absent "path must not be None")
  | some t, some p => do
    let location ← t.location (some p)
    let name ← t.fieldSource "name"
    if !(← t.isMarked m.marker) then return .ignored
    match t.fieldNamed? "parameters" with
    | none => unresolved p location name "delegate declaration could not be resolved"
    | some parameters =>
      if name = "" || t.hasFaults then unresolved p location name "delegate declaration could not be resolved"
      else if !m.namesEvent name then
        malformed p location name s!"[{m.shortMarker}] delegate '{name}' must be named <Event>{m.suffix}"
      else m.readSignature p location name parameters

end Marking

end SignalWiring
