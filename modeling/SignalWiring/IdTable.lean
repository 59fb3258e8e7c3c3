/-
Identifier tables: event names and their integer identifiers, both ways.

A table holds the names with their identifiers, the identifiers with their names, and for discovered events the artifact
that declared them. The two maps have the same size and every name leads to an identifier that leads back; together that
makes them inverse to each other.
-/
import SignalWiring.BuiltinEvent
import SignalWiring.Ledger

namespace SignalWiring

/-- event names and identifiers that match each other -/
structure IdTable where
  names : Ledger String Int
  ids : Ledger Int String
  origins : Ledger String String
  sizes_eq : names.size = ids.size
  reverse : ∀ e ∈ names.entries, ids.get? e.2 = some e.1
  origins_discovered : ∀ n ∈ origins.keys, firstDiscovered ≤ (names.get? n).getD 0

namespace IdTable

/-- a table from maps that may not match; the first name or origin that fails is named -/
def make (names : Ledger String Int) (ids : Ledger Int String) (origins : Ledger String String) :
    Except Fault IdTable :=
  if hs : names.size = ids.size then
    match hn : names.entries.find? fun e => ids.get? e.2 ≠ some e.1 with
    | some e => .error (.invalid (.noReverse e.1 e.2))
    | none =>
      match ho : origins.keys.find? fun n => (names.get? n).getD 0 < firstDiscovered with
      | some n => .error (.invalid (.originNotDiscovered n))
      | none =>
        .ok ⟨names, ids, origins, hs, by simpa using hn, by simpa using ho⟩
  else .error (.invalid (.sizesDiffer names.size ids.size))

def idOf (t : IdTable) (name : String) : Except Fault Int :=
  match t.names.get? name with
  | some id => .ok id
  | none => .error (.unknownKey name)

def nameOf (t : IdTable) (id : Int) : Except Fault String :=
  match t.ids.get? id with
  | some name => .ok name
  | none => .error (.unknownKey (toString id))

def has (t : IdTable) (name : String) : Bool := t.names.has name

def size (t : IdTable) : Nat := t.ids.size

/-- identifiers and names in the table's order -/
def items (t : IdTable) : List (Int × String) := t.ids.entries

def builtinItems (t : IdTable) : List (Int × String) := t.items.filter fun e => e.1 < firstDiscovered

def discoveredItems (t : IdTable) : List (Int × String) := t.items.filter fun e => firstDiscovered ≤ e.1

def discoveredNames (t : IdTable) : List String := t.discoveredItems.map Prod.snd

end IdTable

end SignalWiring
