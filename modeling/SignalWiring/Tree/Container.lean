/-
Containers: the classes of a tree that carry handlers.

A container is a class declaration whose name is the container name. One inside another is covered by the outer one, so
only the outermost are selected, in document order.
-/
import SignalWiring.Tree.Walk

namespace SignalWiring

namespace Tree

/-- the node is a class called `name` -/
def isContainer (name : String) (t : Tree) : Except Fault Bool :=
  if t.kind == "class_declaration" then (t.fieldSource "name").map fun s => s == name else .ok false

/-- some node of those above is a container; the nearest are looked at first -/
def anyContainer (name : String) : List Tree → Except Fault Bool
  | [] => .ok false
  | t :: above => do if ← t.isContainer name then return true else anyContainer name above

end Tree

namespace Place

def isOutermost (name : String) (p : Place) : Except Fault Bool := do
  if ← p.node.isContainer name then return !(← Tree.anyContainer name p.above) else return false

def outermost (name : String) : List Place → Except Fault (List Place)
  | [] => .ok []
  | p :: rest => do
    let keep ← p.isOutermost name
    let more ← outermost name rest
    return if keep then p :: more else more

/-- the outermost containers at and below a place, in document order -/
def containers (name : String) (p : Place) : Except Fault (List Place) := outermost name p.walk

end Place

end SignalWiring
