/-
Extraction: from a source artifact to what it contributes.

The containers of the artifact's syntax tree are selected first; without one the artifact is skipped. Then come, in this
order, a diagnostic for syntax errors, the diagnostics about namespaces, and one pass over the delegates of all
containers, each of which is ignored, a handler or a problem.
-/
import SignalWiring.Artifact
import SignalWiring.Config
import SignalWiring.Context
import SignalWiring.Log
import SignalWiring.Tree.Container
import SignalWiring.Tree.Delegate
import SignalWiring.Tree.Namespace

namespace SignalWiring

/-- what came of scanning one artifact; there is no context when it declares no container -/
@[ext]
structure Extraction where
  artifact : String
  context : Option Context
  diagnostics : List Diagnostic
  artifact_ne : artifact ≠ ""
  context_artifact : ∀ c ∈ context, c.artifact = artifact

instance : DecidableEq Extraction := fun _ _ => decidable_of_iff _ Extraction.ext_iff.symm

namespace Extraction

/-- an extraction from parts that may not belong together -/
def make (artifact : String) (context : Option Context) (diagnostics : List Diagnostic) : Except Fault Extraction :=
  if ha : artifact = "" then .error (Fault.emptyField "artifact_id")
  else
    match context with
    | none => .ok ⟨artifact, none, diagnostics, ha, by simp⟩
    | some c =>
      if hc : c.artifact = artifact then .ok ⟨artifact, some c, diagnostics, ha, by simpa using hc⟩
      else .error (.invalid (.otherContext c.artifact artifact))

/-- the artifact declares no container -/
def skipped (e : Extraction) : Bool := e.context.isNone

/-- one record for each diagnostic that is no mere information, and one for the artifact, if it has a container -/
def records (e : Extraction) : List Log.Record :=
  match e.context with
  | none => []
  | some c =>
    let skips := (e.diagnostics.filter fun d => d.severity ≠ .info).map fun d =>
      ({ level := .warning, event := "declaration_skipped",
         fields := [("artifact", .text e.artifact), ("kind", .text d.kind.label), ("subject", .ofOption d.subject),
                    ("location", .ofOption (d.location.map Location.text))] } : Log.Record)
    skips ++ [{ level := .debug, event := "artifact_extracted",
                fields := [("artifact", .text e.artifact), ("namespace", .text c.namespaceName),
                           ("handlers", .count c.handlers.length)] }]

end Extraction

/-! ## Scanning a tree -/

/-- how the text of an artifact becomes a syntax tree, if it does -/
abbrev SourceReader := Artifact → Option Tree

namespace Config

/-- the marking that the configuration asks for -/
def marking (c : Config) : Marking :=
  ⟨c.marker, c.suffix, Text.ne_empty_of_isIdentifier c.marker_ok, Text.ne_empty_of_isIdentifier c.suffix_ok⟩

end Config

namespace Scan

def shownNamespace (n : String) : String := if n = "" then "<global>" else n

def syntaxDiagnostics (artifact : String) (faults : Nat) : Except Fault (List Diagnostic) :=
  if faults = 0 then .ok []
  else
    (Diagnostic.make .syntaxError .warning s!"{faults} syntax error(s), extraction may be partial" artifact none
      none).map fun d => [d]

/-- a diagnostic for each container whose namespace is not `chosen` -/
def conflictDiagnostics (config : Config) (a : Artifact) (chosen : String) : List Place → Except Fault (List Diagnostic)
  | [] => .ok []
  | p :: rest => do
    let other ← p.namespaceName
    if other = chosen then conflictDiagnostics config a chosen rest
    else
      let location ← p.node.location (some a.path)
      let message := s!"container declared in '{shownNamespace other}' but fragment is emitted into '{shownNamespace chosen}'"
      let d ← Diagnostic.make .conflictingNamespace .warning message a.id (some location) (some config.container)
      let more ← conflictDiagnostics config a chosen rest
      return d :: more

/-- a diagnostic at the first container when its namespace is the global one -/
def globalDiagnostics (config : Config) (a : Artifact) (chosen : String) (first : Place) :
    Except Fault (List Diagnostic) :=
  if chosen ≠ "" then .ok []
  else do
    let location ← first.node.location (some a.path)
    let message := "container declared outside any namespace, using global namespace"
    let d ← Diagnostic.make .unresolvedNamespace .info message a.id (some location) (some config.container)
    return [d]

/-- the delegates strictly inside the containers, in document order -/
def delegates (containers : List Place) : List Place :=
  containers.flatMap fun p => p.descendants "delegate_declaration"

def outcomes (config : Config) (a : Artifact) (places : List Place) : Except Fault (List Outcome) :=
  places.mapM fun p => config.marking.analyze (some p.node) (some a.path)

def scan (config : Config) (a : Artifact) (tree : Tree) : Except Fault Extraction := do
  let faults := tree.countFaults
  match ← Place.containers config.container ⟨tree, []⟩ with
  | [] => Extraction.make a.id none []
  | first :: others =>
    let syntaxErrors ← syntaxDiagnostics a.id faults
    let chosen ← first.namespaceName
    let conflicts ← conflictDiagnostics config a chosen others
    let global ← globalDiagnostics config a chosen first
    let results ← outcomes config a (delegates (first :: others))
    let context ← Context.make (some chosen) a.id (results.filterMap Outcome.record?)
    Extraction.make a.id (some context) (syntaxErrors ++ conflicts ++ global ++ results.filterMap Outcome.problem?)

end Scan

/-- the tree of an artifact; one without a tree is unreadable -/
def readTree (read : SourceReader) (a : Artifact) : Except Fault Tree :=
  match read a with
  | none => .error (.unreadable a.path "parser returned no tree")
  | some tree => .ok tree

def readTreeOf (read : SourceReader) (a : Option Artifact) : Except Fault Tree :=
  match a with
  | none => .error (.absent "artifact must not be None")
  | some x => readTree read x

def extract (read : SourceReader) (config : Config) (a : Artifact) : Except Fault Extraction := do
  Scan.scan config a (← readTree read a)

def extractOf (read : SourceReader) (config : Config) (a : Option Artifact) : Except Fault Extraction :=
  match a with
  | none => .error (.absent "artifact must not be None")
  | some x => extract read config x

end SignalWiring
