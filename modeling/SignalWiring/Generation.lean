/-
Generation: what a run brings about.
-/
import SignalWiring.Diagnostic
import SignalWiring.Fragment
import SignalWiring.IdTable

namespace SignalWiring

/-- the fragments of a run, its diagnostics, and the table that the fragments were rendered with -/
structure Generation where
  fragments : List Fragment
  diagnostics : List Diagnostic
  table : IdTable

namespace Generation

def count (g : Generation) (s : Severity) : Nat := (g.diagnostics.filter fun d => d.severity = s).length

def errors (g : Generation) : Nat := g.count .error

def warnings (g : Generation) : Nat := g.count .warning

/-- there is no error -/
def passed (g : Generation) : Bool := g.errors == 0

def root? (g : Generation) : Option Fragment := g.fragments.find? fun f => f.isRoot

end Generation

end SignalWiring
