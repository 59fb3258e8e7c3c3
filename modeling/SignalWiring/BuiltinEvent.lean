/-
Built-in events: the signals that every container binds.

Their identifiers are fixed. Discovered events are numbered from `firstDiscovered` on.
-/
import SignalWiring.Fault

namespace SignalWiring

/-- a signal of the engine: its identifier, its key in the lookup tables, the class that has its constant, its member
name and the parameters that it forwards -/
@[ext]
structure BuiltinEvent where
  id : Int
  key : String
  owner : String
  member : String
  parameters : List String := []
  id_pos : 0 < id := by decide
  key_ne : key ≠ "" := by decide
  owner_ne : owner ≠ "" := by decide
  member_ne : member ≠ "" := by decide

instance : DecidableEq BuiltinEvent := fun _ _ => decidable_of_iff _ BuiltinEvent.ext_iff.symm

namespace BuiltinEvent

/-- a built-in event from fields that may break an invariant -/
def make (id : Int) (key owner member : String) (parameters : List String) : Except Fault BuiltinEvent :=
  if hi : 0 < id then
    if hk : key = "" then .error (Fault.emptyField "key")
    else if ho : owner = "" then .error (Fault.emptyField "owner")
    else if hm : member = "" then .error (Fault.emptyField "member")
    else .ok ⟨id, key, owner, member, parameters, hi, hk, ho, hm⟩
  else .error (.invalid (.identifierNotPositive id))

def constant (e : BuiltinEvent) : String := s!"{e.owner}.SignalName.{e.member}"

def objectClass : String := "Godot.GodotObject"

def nodeClass : String := "Godot.Node"

/-- the nine signals that every container binds -/
def all : List BuiltinEvent :=
  [{ id := 1, key := "script_changed", owner := objectClass, member := "ScriptChanged" },
   { id := 2, key := "property_list_changed", owner := objectClass, member := "PropertyListChanged" },
   { id := 3, key := "ready", owner := nodeClass, member := "Ready" },
   { id := 4, key := "renamed", owner := nodeClass, member := "Renamed" },
   { id := 5, key := "tree_entered", owner := nodeClass, member := "TreeEntered" },
   { id := 6, key := "tree_exiting", owner := nodeClass, member := "TreeExiting" },
   { id := 7, key := "tree_exited", owner := nodeClass, member := "TreeExited" },
   { id := 8, key := "child_entered_tree", owner := nodeClass, member := "ChildEnteredTree", parameters := ["node"] },
   { id := 9, key := "child_exiting_tree", owner := nodeClass, member := "ChildExitingTree", parameters := ["node"] }]

end BuiltinEvent

/-- the smallest identifier of a discovered event -/
def firstDiscovered : Int := 10

end SignalWiring
