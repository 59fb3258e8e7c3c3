/-
The console report: a line of numbers, a table of fragments and a table of diagnostics, on a console of some width.

Texts of the run are escaped, so that a tag in them shows as it stands.
-/
import SignalWiring.Generation
import SignalWiring.Report.Toolkit

namespace SignalWiring.Report.Console

def severityStyle : Severity → String
  | .error => "bold red"
  | .warning => "yellow"
  | .info => "dim"

def summary (g : Generation) : String :=
  let status := if g.passed then "[green]OK[/green]" else "[bold red]FAILED[/bold red]"
  s!"[bold]behaviorgen[/bold] {status}: {g.fragments.length} fragment(s), " ++
    s!"{g.table.discoveredNames.length} custom signal(s), {g.errors} error(s), {g.warnings} warning(s)"

def fragmentColumns : List Column :=
  [{ header := "Artifact".toList }, { header := "Output".toList }, { header := "Root".toList, align := .center }]

def fragmentRow (t : Toolkit) (f : Fragment) : List (List Char) :=
  [t.escape f.artifact.toList, t.escape f.hint.toList, if f.isRoot then "yes".toList else []]

def fragmentGrid (t : Toolkit) (fs : List Fragment) : Grid where
  title := "Fragments".toList
  columns := fragmentColumns
  rows := fs.map (fragmentRow t)

def diagnosticColumns : List Column :=
  [{ header := "Severity".toList }, { header := "Kind".toList }, { header := "Where".toList },
   { header := "Message".toList }]

def diagnosticRow (t : Toolkit) (d : Diagnostic) : List (List Char) :=
  [styled (severityStyle d.severity).toList d.severity.label.toList, d.kind.label.toList,
   t.escape d.place.toList, t.escape d.message.toList]

def diagnosticGrid (t : Toolkit) (ds : List Diagnostic) : Grid where
  title := "Diagnostics".toList
  columns := diagnosticColumns
  rows := ds.map (diagnosticRow t)

/-- the report of a run; a table without rows is left out -/
def report (t : Toolkit) (width : Nat) (g : Generation) : String :=
  t.print width (summary g).toList ++
  (if g.fragments.isEmpty then "" else t.draw width (fragmentGrid t g.fragments)) ++
  (if g.diagnostics.isEmpty then "" else t.draw width (diagnosticGrid t g.diagnostics))

def failure (t : Toolkit) (width : Nat) (message : String) : String :=
  t.print width (styled "bold red".toList "error:".toList ++ ' ' :: t.escape message.toList)

end SignalWiring.Report.Console
