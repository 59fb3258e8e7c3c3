/-
Contexts: what one artifact contributes to generation.

A context is replaced as a whole whenever its artifact is scanned again.
-/
import SignalWiring.Handler

namespace SignalWiring

/-- the namespace of the container, the artifact, and its handlers in declaration order -/
@[ext]
structure Context where
  namespaceName : String
  artifact : String
  handlers : List Handler
  artifact_ne : artifact ≠ ""

instance : DecidableEq Context := fun _ _ => decidable_of_iff _ Context.ext_iff.symm

namespace Context

/-- a context from fields that may be missing or empty -/
def make (namespaceName : Option String) (artifact : String) (handlers : List Handler) : Except Fault Context :=
  match namespaceName with
  | none => .error (.absent "namespace_name must not be None (use '' for global)")
  | some n =>
    if h : artifact = "" then .error (Fault.emptyField "artifact_id")
    else .ok ⟨n, artifact, handlers, h⟩

/-- event names in declaration order -/
def events (c : Context) : List String := c.handlers.map Handler.event

end Context

end SignalWiring
