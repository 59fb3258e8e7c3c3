/-
Styles of reports.
-/
import SignalWiring.Report.Console
import SignalWiring.Report.Plain
import SignalWiring.Report.Standard

namespace SignalWiring.Report

inductive Style where
  | console
  | plain
  deriving DecidableEq, Repr, Inhabited

def Style.label : Style → String
  | .console => "console"
  | .plain => "plain"

def standardWidth : Nat := 120

def Style.report (s : Style) (width : Nat) (g : Generation) : String :=
  match s with
  | .console => Console.report (.standard Markup.numbers) width g
  | .plain => Plain.report g

def Style.failure (s : Style) (width : Nat) (message : String) : String :=
  match s with
  | .console => Console.failure (.standard Markup.numbers) width message
  | .plain => Plain.failure message

end SignalWiring.Report
