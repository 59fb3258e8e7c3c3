/-
The places of a tree, by its structure.

A walk keeps a stack. Here the places are listed by recursion over the tree instead, each node with the nodes above it.

- `walkFrom_eq`, `walk_eq`: a walk yields these places, in the same order.
- `Tree.induct`: what holds of a node as soon as it holds of its children holds of every tree.
- `nodes_places`: their nodes are the preorder of the tree.
- `suffix_of_mem_places`, `mem_of_mem_above`: what is above a place.
-/
import Mathlib.Tactic
import SignalWiring.Tree.Walk

namespace SignalWiring

namespace Tree

mutual

/-- the places at and below a node, in document order; `above` are the nodes above it -/
def places (above : List Tree) : Tree → List Place
  | ⟨k, b, r, c, t, f, m, e, cs⟩ =>
    ⟨⟨k, b, r, c, t, f, m, e, cs⟩, above⟩ :: placesAll (⟨k, b, r, c, t, f, m, e, cs⟩ :: above) cs

/-- the places at and below several nodes that have the same nodes above them -/
def placesAll (above : List Tree) : List Tree → List Place
  | [] => []
  | t :: ts => t.places above ++ placesAll above ts

end

variable {t n : Tree} {ts above : List Tree} {p : Place}

theorem places_eq (above : List Tree) (t : Tree) :
    t.places above = ⟨t, above⟩ :: placesAll (t :: above) t.children := by
  cases t
  rw [places]

theorem placesAll_eq (above ts : List Tree) : placesAll above ts = ts.flatMap fun t => t.places above := by
  induction ts with
  | nil => rw [placesAll, List.flatMap_nil]
  | cons t ts ih => rw [placesAll, ih, List.flatMap_cons]

theorem mem_placesAll : p ∈ placesAll above ts ↔ ∃ t ∈ ts, p ∈ t.places above := by
  rw [placesAll_eq, List.mem_flatMap]

/-- **Walks.** A walk yields the places on its stack, each with all that is below it. -/
theorem walkFrom_eq (stack : List Place) : walkFrom stack = stack.flatMap fun p => p.node.places p.above := by
  induction stack using walkFrom.induct with
  | case1 => rw [walkFrom, List.flatMap_nil]
  | case2 p stack ih =>
    have hchildren : (p.children.flatMap fun q => q.node.places q.above) =
        placesAll (p.node :: p.above) p.node.children := by
      rw [Place.children, List.flatMap_map, placesAll_eq]
    rw [walkFrom, ih, List.flatMap_append, hchildren, List.flatMap_cons, places_eq, List.cons_append]

end Tree

theorem Place.walk_eq (p : Place) : p.walk = p.node.places p.above := by
  rw [walk, Tree.walkFrom_eq, List.flatMap_cons, List.flatMap_nil, List.append_nil]

/-- what is strictly below a place -/
theorem Place.descendants_eq (p : Place) (kind : String) :
    p.descendants kind = (Tree.placesAll (p.node :: p.above) p.node.children).filter fun q => q.node.kind == kind := by
  rw [descendants, walk_eq, Tree.places_eq, List.tail_cons]

namespace Tree

variable {t n : Tree} {ts above : List Tree} {p : Place}

/-! ## Induction -/

/-- induction over a tree: from the children of a node to the node -/
@[elab_as_elim]
theorem induct {motive : Tree → Prop} (node : ∀ t, (∀ c ∈ t.children, motive c) → motive t) : ∀ t, motive t
  | ⟨k, b, r, c, t, f, m, e, cs⟩ => node ⟨k, b, r, c, t, f, m, e, cs⟩ fun x _ => induct node x

/-! ## Nodes -/

theorem mem_preorderAll : n ∈ preorderAll ts ↔ ∃ t ∈ ts, n ∈ t.preorder := by
  induction ts with
  | nil => simp [preorderAll]
  | cons t ts ih => simp [preorderAll, ih]

theorem self_mem_preorder (t : Tree) : t ∈ t.preorder := by
  rw [preorder_eq]
  exact List.mem_cons_self

theorem child_mem_preorder (h : n ∈ t.children) : n ∈ t.preorder := by
  rw [preorder_eq]
  exact List.mem_cons_of_mem _ (mem_preorderAll.2 ⟨n, h, self_mem_preorder n⟩)

/-- what is below a node of a tree is below the tree -/
theorem preorder_subset (h : n ∈ t.preorder) : n.preorder ⊆ t.preorder := by
  induction t using Tree.induct with
  | node t ih =>
    rw [preorder_eq t] at h ⊢
    rcases List.mem_cons.1 h with rfl | h
    · rw [← preorder_eq n]
      exact fun _ hx => hx
    · obtain ⟨c, hc, hn⟩ := mem_preorderAll.1 h
      intro x hx
      exact List.mem_cons_of_mem _ (mem_preorderAll.2 ⟨c, hc, ih c hc hn hx⟩)

/-- **Nodes.** The nodes of the places are the preorder of the tree. -/
theorem nodes_places (above : List Tree) (t : Tree) : (t.places above).map Place.node = t.preorder := by
  have hwalk := nodes_walkFrom [⟨t, above⟩]
  rw [walkFrom_eq, List.flatMap_cons, List.flatMap_nil, List.append_nil] at hwalk
  rw [hwalk, List.map_cons, List.map_nil, preorderAll, preorderAll, List.append_nil]

theorem node_mem_preorder (h : p ∈ t.places above) : p.node ∈ t.preorder := by
  rw [← nodes_places above t]
  exact List.mem_map_of_mem h

/-! ## What is above -/

/-- what is above a tree is above each of its places, and farther off than the tree -/
theorem suffix_of_mem_places (h : p ∈ t.places above) : above <:+ p.above := by
  induction t using Tree.induct generalizing above with
  | node t ih =>
    rw [places_eq] at h
    rcases List.mem_cons.1 h with rfl | h
    · exact List.suffix_rfl
    · obtain ⟨c, hc, hp⟩ := mem_placesAll.1 h
      exact (List.suffix_cons t above).trans (ih c hc hp)

/-- what is above a place is above the tree or in it -/
theorem mem_of_mem_above (h : p ∈ t.places above) (hn : n ∈ p.above) : n ∈ above ∨ n ∈ t.preorder := by
  induction t using Tree.induct generalizing above with
  | node t ih =>
    rw [places_eq] at h
    rcases List.mem_cons.1 h with rfl | h
    · exact Or.inl hn
    · obtain ⟨c, hc, hp⟩ := mem_placesAll.1 h
      rcases ih c hc hp with hmem | hmem
      · rcases List.mem_cons.1 hmem with rfl | hmem
        · exact Or.inr (self_mem_preorder n)
        · exact Or.inl hmem
      · exact Or.inr (preorder_subset (child_mem_preorder hc) hmem)

end Tree

end SignalWiring
