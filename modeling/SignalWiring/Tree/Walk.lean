/-
Walking a syntax tree with an explicit stack.

`walkFrom` takes the next node from a stack of places, yields it, and puts its children on the stack in its stead. The
nodes on the stack get fewer with every step, so the walk ends. `walk` starts it at one place.

`nodes_walkFrom`: the walk yields the preorders of the places on its stack.
-/
import SignalWiring.Tree.Basic

namespace SignalWiring

namespace Tree

/-- number of nodes at and below the places -/
def pending (stack : List Place) : Nat := sizeAll (stack.map Place.node)

theorem pending_children_append (p : Place) (stack : List Place) :
    pending (p.children ++ stack) < pending (p :: stack) := by
  simp only [pending, List.map_append, List.map_cons, sizeAll_append, sizeAll, Place.children, List.map_map,
    size_eq p.node]
  have h : List.map (Place.node ∘ fun c => (⟨c, p.node :: p.above⟩ : Place)) p.node.children = p.node.children := by
    simp [Function.comp_def]
  rw [h]
  omega

/-- the places that the walk yields from a stack, next place first -/
def walkFrom : List Place → List Place
  | [] => []
  | p :: stack => p :: walkFrom (p.children ++ stack)
termination_by stack => pending stack
decreasing_by exact pending_children_append p stack

end Tree

namespace Place

/-- the place and all below it, in document order -/
def walk (p : Place) : List Place := Tree.walkFrom [p]

/-- the places strictly below that have a kind, in document order -/
def descendants (p : Place) (kind : String) : List Place := p.walk.tail.filter fun q => q.node.kind == kind

end Place

namespace Tree

theorem preorderAll_append (xs ys : List Tree) : preorderAll (xs ++ ys) = preorderAll xs ++ preorderAll ys := by
  induction xs with
  | nil => simp [preorderAll]
  | cons x xs ih => simp [preorderAll, ih]

/-- The walk yields the preorders of the places on its stack. -/
theorem nodes_walkFrom (stack : List Place) :
    (walkFrom stack).map Place.node = preorderAll (stack.map Place.node) := by
  induction stack using walkFrom.induct with
  | case1 => simp [walkFrom, preorderAll]
  | case2 p stack ih =>
    rw [walkFrom, List.map_cons, ih, List.map_append, preorderAll_append, List.map_cons]
    have h : p.children.map Place.node = p.node.children := by
      simp [Place.children, Function.comp_def]
    simp [h, preorderAll, preorder_eq p.node]

/-- the number of error and missing nodes of a tree -/
def countFaults (t : Tree) : Nat := ((Place.walk ⟨t, []⟩).filter fun p => p.node.isFault).length

/-- there is an error in the tree: as its reader says, else by the count -/
def hasFaults (t : Tree) : Bool :=
  match t.errorFlag with
  | some flag => flag
  | none => decide (0 < t.countFaults)

end Tree

end SignalWiring
