/-
The plain report: one line for every fact.
-/
import SignalWiring.Generation

namespace SignalWiring.Report.Plain

def fragmentLine (f : Fragment) : String :=
  let mark := if f.isRoot then " (root)" else ""
  s!"  {f.artifact} -> {f.hint}{mark}"

def diagnosticLines : Nat → List Diagnostic → List String
  | _, [] => []
  | n, d :: rest => s!"{n}. {d.text}" :: diagnosticLines (n + 1) rest

def lines (g : Generation) : List String :=
  [s!"Generated {g.fragments.length} fragment(s), {g.table.discoveredNames.length} custom signal(s)",
   s!"Errors: {g.errors}  Warnings: {g.warnings}"] ++
  g.fragments.map fragmentLine ++
  (if g.diagnostics.isEmpty then []
   else ["", s!"Diagnostics ({g.diagnostics.length}):"] ++ diagnosticLines 1 g.diagnostics)

def report (g : Generation) : String := Text.join "\n" (lines g) ++ "\n"

def failure (message : String) : String := s!"error: {message}\n"

end SignalWiring.Report.Plain
