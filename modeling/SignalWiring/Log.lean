/-
Log records: what the stages report while they work.

A record has a level, the event that happened, and named fields. Wordings of records for people and machines are in
`Log.Format`.
-/

namespace SignalWiring.Log

/-- weight of a record -/
inductive Level where
  | debug
  | info
  | warning
  | error
  deriving DecidableEq, Repr, Inhabited

def Level.label : Level → String
  | .debug => "debug"
  | .info => "info"
  | .warning => "warning"
  | .error => "error"

/-- number of a level, by which records are let through -/
def Level.weight : Level → Nat
  | .debug => 10
  | .info => 20
  | .warning => 30
  | .error => 40

inductive Value where
  | none
  | count (n : Nat)
  | text (s : String)
  deriving DecidableEq, Repr, Inhabited

/-- a text that may be missing -/
def Value.ofOption : Option String → Value
  | some s => .text s
  | Option.none => .none

/-- one thing that happened -/
structure Record where
  level : Level
  event : String
  fields : List (String × Value)
  deriving DecidableEq, Repr, Inhabited

end SignalWiring.Log
