/-
Diagnostics: problems found while scanning or aggregating artifacts.

A diagnostic always has a message and belongs to an artifact. It may point at a declaration.
-/
import SignalWiring.Location

namespace SignalWiring

inductive Severity where
  /-- generation fails -/
  | error
  /-- a declaration is skipped and generation goes on -/
  | warning
  /-- for information -/
  | info
  deriving DecidableEq, Repr, Inhabited

def Severity.label : Severity → String
  | .error => "ERROR"
  | .warning => "WARNING"
  | .info => "INFO"

inductive DiagnosticKind where
  /-- a marked delegate is not named or written as it must be -/
  | malformedDeclaration
  /-- a marked delegate could not be resolved -/
  | unresolvedSymbol
  /-- a container is declared in the global namespace -/
  | unresolvedNamespace
  /-- containers of one artifact disagree -/
  | conflictingNamespace
  /-- the artifact has syntax errors -/
  | syntaxError
  /-- the artifact could not be read or parsed -/
  | unreadableArtifact
  /-- extraction of the artifact failed -/
  | extractionFailed
  /-- a registry entry has no matching artifact -/
  | staleRegistryEntry
  deriving DecidableEq, Repr, Inhabited

def DiagnosticKind.label : DiagnosticKind → String
  | .malformedDeclaration => "MALFORMED_DECLARATION"
  | .unresolvedSymbol => "UNRESOLVED_SYMBOL"
  | .unresolvedNamespace => "UNRESOLVED_NAMESPACE"
  | .conflictingNamespace => "CONFLICTING_NAMESPACE"
  | .syntaxError => "SYNTAX_ERROR"
  | .unreadableArtifact => "UNREADABLE_ARTIFACT"
  | .extractionFailed => "EXTRACTION_FAILED"
  | .staleRegistryEntry => "STALE_REGISTRY_ENTRY"

/-- a problem, the artifact it belongs to, and what it points at -/
@[ext]
structure Diagnostic where
  kind : DiagnosticKind
  severity : Severity
  message : String
  artifact : String
  location : Option Location
  subject : Option String
  message_ne : message ≠ ""
  artifact_ne : artifact ≠ ""

instance : DecidableEq Diagnostic := fun _ _ => decidable_of_iff _ Diagnostic.ext_iff.symm

namespace Diagnostic

/-- a diagnostic from texts that may be empty -/
def make (kind : DiagnosticKind) (severity : Severity) (message artifact : String) (location : Option Location)
    (subject : Option String) : Except Fault Diagnostic :=
  if hm : message = "" then .error (Fault.emptyField "message")
  else if ha : artifact = "" then .error (Fault.emptyField "artifact_id")
  else .ok ⟨kind, severity, message, artifact, location, subject, hm, ha⟩

/-- its location, or its artifact when it points at nothing -/
def place (d : Diagnostic) : String :=
  match d.location with
  | some l => l.text
  | none => d.artifact

/-- one line of text -/
def text (d : Diagnostic) : String := s!"[{d.severity.label}] {d.kind.label}: {d.message} ({d.place})"

theorem make_eq_ok {kind : DiagnosticKind} {severity : Severity} {message artifact : String}
    {location : Option Location} {subject : Option String} (hm : message ≠ "") (ha : artifact ≠ "") :
    make kind severity message artifact location subject =
      .ok ⟨kind, severity, message, artifact, location, subject, hm, ha⟩ := by
  simp [make, hm, ha]

end Diagnostic

end SignalWiring
