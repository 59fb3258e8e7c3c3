/-
Assignment of identifiers to events.

Built-in events keep their identifiers. The events of a snapshot are numbered from `firstDiscovered` on, by name or in
the order of the snapshot. An event that is declared twice, or has the key of a built-in one, stops the assignment at its
second declaration in the walk over contexts and their handlers.
-/
import SignalWiring.Config
import SignalWiring.Context
import SignalWiring.Given
import SignalWiring.IdTable

namespace SignalWiring.Assignment

/-- who declares an event that is built in -/
def builtinOrigin : String := "<builtin>"

/-- the events of a snapshot with their artifacts, in order of declaration -/
def declarations (snapshot : List Context) : List (String × String) :=
  snapshot.flatMap fun c => c.handlers.map fun h => (h.event, c.artifact)

/-- add declarations one by one; the first event that is reserved or there already is a fault -/
def collect (reserved : List String) : Ledger String String → List (String × String) → Except Fault (Ledger String String)
  | origins, [] => .ok origins
  | origins, (event, artifact) :: rest =>
    if reserved.contains event then .error (.duplicateEvent event builtinOrigin artifact)
    else
      match origins.get? event with
      | some first => .error (.duplicateEvent event first artifact)
      | none => collect reserved (origins.put event artifact) rest

/-- each discovered event with the artifact that declares it, in order of discovery -/
def origins (snapshot : List Context) (builtins : List BuiltinEvent) : Except Fault (Ledger String String) :=
  collect (builtins.map BuiltinEvent.key) {} (declarations snapshot)

/-- events in the order in which they are numbered -/
def arrange (order : IdOrder) (names : List String) : List String :=
  match order with
  | .sorted => names.mergeSort fun a b => decide (a ≤ b)
  | .discovery => names

def numbered (names : List String) : List (String × Int) :=
  names.zipIdx.map fun e => (e.1, firstDiscovered + (e.2 : Int))

/-- the table of names and identifiers given in order, with origins for some of them -/
def tabulate (pairs : List (String × Int)) (origins : Ledger String String) : Except Fault IdTable :=
  let names := Ledger.ofList pairs
  let ids := Ledger.ofList (pairs.map fun e => (e.2, e.1))
  IdTable.make names (ids.sortKeys fun a b => decide (a ≤ b)) origins

def assign (snapshot : List Context) (order : IdOrder) (builtins : List BuiltinEvent) : Except Fault IdTable := do
  let found ← origins snapshot builtins
  let names := arrange order found.keys
  let arranged := Ledger.ofList (names.filterMap fun n => (found.get? n).map fun a => (n, a))
  tabulate (builtins.map (fun e => (e.key, e.id)) ++ numbered names) arranged

/-- `f` of contexts that may not be there; the walk over them ends at the first one that is missing -/
def ofGiven {α : Type} (snapshot : List (Option Context)) (builtins : List BuiltinEvent)
    (f : List Context → Except Fault α) : Except Fault α :=
  match untilAbsent snapshot with
  | (found, false) => f found
  | (found, true) => (origins found builtins).bind fun _ => .error .memberless

def originsOf (snapshot : Option (List (Option Context))) (builtins : List BuiltinEvent) :
    Except Fault (Ledger String String) :=
  match snapshot with
  | none => .error .mistyped
  | some s => ofGiven s builtins fun found => origins found builtins

/-- `assign` of a snapshot that may not be there -/
def assignOf (snapshot : Option (List (Option Context))) (order : IdOrder) (builtins : List BuiltinEvent) :
    Except Fault IdTable :=
  match snapshot with
  | none => .error (.absent "snapshot must not be None")
  | some s => ofGiven s builtins fun found => assign found order builtins

end SignalWiring.Assignment
