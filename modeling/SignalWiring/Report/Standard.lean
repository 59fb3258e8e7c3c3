/-
The toolkit that a report is printed with.

Marked-up texts and the cells of tables are read as `Markup` says, and laid out as `Grid` says.
-/
import SignalWiring.Report.Grid
import SignalWiring.Report.Markup

namespace SignalWiring.Report.Toolkit

def printLines (width : Nat) (lines : List (List Char)) : String :=
  String.ofList (lines.flatMap fun line => Text.cutCells width line ++ ['\n'])

/-- the lines of a text on a console of `width` cells -/
def textLines (width : Nat) (cs : List Char) : List (List Char) :=
  (Text.wrap .fold width cs).map (Text.shorten .fold width)

/-- a table with what its cells show; its title and its headers have no markup in them -/
def shownGrid (gallery : Markup.Gallery) (g : Grid) : Grid :=
  { g with rows := g.rows.map fun row => row.map (Markup.shown gallery) }

def standard (gallery : Markup.Gallery) : Toolkit where
  escape := Markup.escape
  print width cs := printLines width (textLines width (Markup.shown gallery cs))
  draw width g := printLines width ((shownGrid gallery g).lines width)

end SignalWiring.Report.Toolkit
