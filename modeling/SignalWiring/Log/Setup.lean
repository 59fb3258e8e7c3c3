/-
Which log records are written, and how.

A setup begins without a handler. Configuring it names the least weight that is let through and the format; once that
has been done, configuring it again changes nothing until it is reset.
-/
import SignalWiring.Fault
import SignalWiring.Log.Format

namespace SignalWiring.Log

/-- the least weight that is let through, and the format, when there is one -/
structure Setup where
  threshold : Nat := 30
  format : Option Format := none
  deriving DecidableEq, Repr, Inhabited

namespace Setup

def weights : List (String × Nat) :=
  [("CRITICAL", 50), ("FATAL", 50), ("ERROR", 40), ("WARN", 30), ("WARNING", 30), ("INFO", 20), ("DEBUG", 10),
   ("NOTSET", 0)]

/-- the capital of a letter that a name of a weight can hold -/
def capital (c : Char) : Char := if c = 'ı' then 'I' else if c = 'ſ' then 'S' else c.toUpper

/-- the weight with a name, whatever the case of its letters -/
def weight? (name : String) : Option Nat := weights.lookup (String.ofList (name.toList.map capital))

/-- nothing has been configured -/
def fresh : Setup := {}

def configured (s : Setup) : Bool := s.format.isSome

def configure (s : Setup) (level format : String) : Except Fault Setup :=
  if s.configured then .ok s
  else
    match weight? level with
    | none => .error (.invalid (.unknownLevel level))
    | some n =>
      match Format.ofLabel? format with
      | none => .error (.invalid (.unknownLogFormat format))
      | some f => .ok ⟨n, some f⟩

/-- what is written to the standard output and to the error output for records made at `moment` -/
def write (s : Setup) (moment : String) (rs : List Record) : String × String :=
  let kept := rs.filter fun r => s.threshold ≤ r.level.weight
  match s.format with
  | none => ("", "")
  | some .console => (Format.console.write moment kept, "")
  | some .json => ("", Format.json.write moment kept)

end Setup

end SignalWiring.Log
