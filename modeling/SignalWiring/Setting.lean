/-
Settings: values of a configuration, before anything is known about them.

`Setting.shown` is the reading form used in messages, which a value has unless it is `Setting.overlong`.
`Setting.typeName` is the name of a value's type there, and `Setting.holds` tells whether a value counts as something:
nothing, false, zero and whatever is empty do not.
-/
import SignalWiring.Decimal.Shortest
import SignalWiring.Text.Quoted
import SignalWiring.Text.Split

namespace SignalWiring

/-! ## Dates and times -/

structure Moment.Day where
  year : Nat
  month : Nat
  day : Nat
  deriving DecidableEq, Repr, Inhabited

/-- a time of day to the microsecond -/
structure Moment.Clock where
  hour : Nat
  minute : Nat
  second : Nat
  micro : Nat
  deriving DecidableEq, Repr, Inhabited

/-- a day, a time of day, or both, the latter perhaps with its distance from universal time in minutes -/
inductive Moment where
  | day (d : Moment.Day)
  | clock (c : Moment.Clock)
  | both (d : Moment.Day) (c : Moment.Clock) (offset : Option Int)
  deriving DecidableEq, Repr, Inhabited

namespace Moment

/-- numbers after one another, with `, ` between them -/
def commaSeparated (ns : List Nat) : String := Text.join ", " (ns.map toString)

/-- seconds and microseconds, as far as something other than zero follows -/
def Clock.tail (c : Clock) : List Nat :=
  if c.micro ≠ 0 then [c.second, c.micro] else if c.second ≠ 0 then [c.second] else []

/-- a distance from universal time -/
def offsetText (minutes : Int) : String :=
  if minutes = 0 then "datetime.timezone.utc"
  else if minutes > 0 then s!"datetime.timezone(datetime.timedelta(seconds={minutes * 60}))"
  else s!"datetime.timezone(datetime.timedelta(days=-1, seconds={86400 + minutes * 60}))"

/-- the reading form -/
def text : Moment → String
  | .day d => s!"datetime.date({commaSeparated [d.year, d.month, d.day]})"
  | .clock c => s!"datetime.time({commaSeparated ([c.hour, c.minute] ++ c.tail)})"
  | .both d c offset =>
    let numbers := commaSeparated ([d.year, d.month, d.day, c.hour, c.minute] ++ c.tail)
    match offset with
    | none => s!"datetime.datetime({numbers})"
    | some minutes => s!"datetime.datetime({numbers}, tzinfo={offsetText minutes})"

def typeName : Moment → String
  | .day _ => "date"
  | .clock _ => "time"
  | .both .. => "datetime"

end Moment

/-! ## Settings -/

/-- a value of a configuration -/
inductive Setting where
  | null
  | flag (value : Bool)
  | whole (value : Int)
  | real (value : Decimal.Double)
  | text (value : String)
  | list (items : List Setting)
  | table (entries : List (String × Setting))
  | moment (value : Moment)
  deriving Inhabited

namespace Setting

mutual

/-- the reading form of a value -/
def shown : Setting → String
  | .null => "None"
  | .flag true => "True"
  | .flag false => "False"
  | .whole n => toString n
  | .real x => Decimal.text x
  | .text s => Text.quote s
  | .list items => "[" ++ Text.join ", " (shownItems items) ++ "]"
  | .table entries => "\x7b" ++ Text.join ", " (shownEntries entries) ++ "\x7d"
  | .moment m => m.text

def shownItems : List Setting → List String
  | [] => []
  | s :: rest => shown s :: shownItems rest

/-- the reading forms of the entries of a table -/
def shownEntries : List (String × Setting) → List String
  | [] => []
  | (k, s) :: rest => (Text.quote k ++ ": " ++ shown s) :: shownEntries rest

end

mutual

/-- a number in the value is too long to be written out, and so the value has no reading form -/
def overlong : Setting → Bool
  | .whole n => Decimal.overlong Decimal.maxDigits n
  | .list items => overlongItems items
  | .table entries => overlongEntries entries
  | _ => false

/-- an item of a list has no reading form -/
def overlongItems : List Setting → Bool
  | [] => false
  | s :: rest => overlong s || overlongItems rest

/-- an entry of a table has no reading form -/
def overlongEntries : List (String × Setting) → Bool
  | [] => false
  | (_, s) :: rest => overlong s || overlongEntries rest

end

/-- the name of a value's type -/
def typeName : Setting → String
  | .null => "NoneType"
  | .flag _ => "bool"
  | .whole _ => "int"
  | .real _ => "float"
  | .text _ => "str"
  | .list _ => "list"
  | .table _ => "dict"
  | .moment m => m.typeName

/-- the value counts as something -/
def holds : Setting → Bool
  | .null => false
  | .flag b => b
  | .whole n => n != 0
  | .real x => !x.isZero
  | .text s => s != ""
  | .list items => !items.isEmpty
  | .table entries => !entries.isEmpty
  | .moment _ => true

def isText (s : String) : Setting → Bool
  | .text t => t == s
  | _ => false

/-- the character `c` is in a text, or the text of `c` is an item or a key; `none` for a value that holds nothing -/
def contains? (c : Char) : Setting → Option Bool
  | .text s => some (s.toList.contains c)
  | .list items => some (items.any (isText (String.singleton c)))
  | .table entries => some (entries.any fun e => e.1 == String.singleton c)
  | _ => none

/-- the value is a number below one; `none` for what is no number -/
def belowOne? : Setting → Option Bool
  | .flag b => some (!b)
  | .whole n => some (n < 1)
  | .real x => some x.ltOne
  | _ => none

def aboveOne : Setting → Bool
  | .whole n => 1 < n
  | .real x => x.gtOne
  | _ => false

end Setting

end SignalWiring
