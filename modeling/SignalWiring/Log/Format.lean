/-
Written log records.

For people a record is a level and its fields, sorted by name, wrapped to a console of eighty cells; each line is padded
to that width. For machines it is a JSON object on one line, with the fields in the order in which they were given and
the moment at the end. In both the event and the level are fields like the others.
-/
import SignalWiring.Log
import SignalWiring.Text.Json
import SignalWiring.Text.Wrap

namespace SignalWiring.Log

/-- how records are written -/
inductive Format where
  | console
  | json
  deriving DecidableEq, Repr, Inhabited

def Format.label : Format → String
  | .console => "console"
  | .json => "json"

def Format.ofLabel? (s : String) : Option Format := [Format.console, .json].find? fun f => f.label == s

def Level.title : Level → String
  | .debug => "DEBUG"
  | .info => "INFO"
  | .warning => "WARNING"
  | .error => "ERROR"

def Value.shown : Value → String
  | .none => "None"
  | .count n => toString n
  | .text s => Text.quote s

def Value.json : Value → String
  | .none => "null"
  | .count n => toString n
  | .text s => Text.jsonString s

namespace Record

/-- the fields, then the event and the level -/
def allFields (r : Record) : List (String × Value) :=
  r.fields ++ [("event", .text r.event), ("level", .text r.level.label)]

/-- the fields sorted by name -/
def message (r : Record) : String :=
  Text.join " " ((r.allFields.mergeSort fun a b => decide (a.1 ≤ b.1)).map fun f => f.1 ++ "=" ++ f.2.shown)

/-- cells of the level's column, and of what stands between it and the message -/
def indent : Nat := 9

/-- cells of a message line -/
def messageWidth : Nat := 71

/-- the lines for people: the level stands on the first one -/
def consoleLines (r : Record) : List (List Char) :=
  let lines := (Text.wrap .fold messageWidth r.message.toList).map (Text.alignLeft .fold messageWidth)
  let level := Text.fitCells indent r.level.title.toList
  lines.zipIdx.map fun (line, i) => (if i = 0 then level else List.replicate indent ' ') ++ line

/-- the object for machines of a record made at `moment` -/
def jsonLine (moment : String) (r : Record) : String :=
  let fields := r.allFields ++ [("timestamp", .text moment)]
  "\x7b" ++ Text.join ", " (fields.map fun f => Text.jsonString f.1 ++ ": " ++ f.2.json) ++ "\x7d"

end Record

def Format.write (f : Format) (moment : String) (rs : List Record) : String :=
  match f with
  | .console => String.ofList (rs.flatMap fun r => r.consoleLines.flatMap fun line => line ++ ['\n'])
  | .json => String.join (rs.map fun r => r.jsonLine moment ++ "\n")

end SignalWiring.Log
