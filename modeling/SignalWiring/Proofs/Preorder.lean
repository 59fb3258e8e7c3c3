/-
A walk is the preorder of its tree.

The walk is a loop over a stack, and `Walking.round` is one round of it. Every round yields one place, and there are as
many rounds to come as there are nodes at and below the places on the stack. A node of a tree is told from all others by
its position, the child positions that lead to it; positions in ascending order are document order, and a walk goes
through all of them in that order.

- `Walking.yielded_rounds`, `Walking.stack_rounds`: what has been yielded after some rounds, and when the loop ends.
- `Tree.positions_ascending`, `Tree.mem_positions`: the positions of a tree.
- `Tree.places_positions`: the places of a tree stand at its positions.
- `Place.walk_preorder`: a walk ends, and has been at every position once, in document order.
-/
import SignalWiring.Proofs.Places

namespace SignalWiring

namespace Tree

/-! ## Rounds -/

/-- a walk under way: the places on its stack, the next one first, and those that it has yielded -/
structure Walking where
  stack : List Place
  yielded : List Place := []

namespace Walking

/-- one round: the next place is yielded, and its children come onto the stack in its stead -/
def round : Walking → Walking
  | ⟨[], yielded⟩ => ⟨[], yielded⟩
  | ⟨p :: stack, yielded⟩ => ⟨p.children ++ stack, yielded ++ [p]⟩

/-- some rounds, one after the other -/
def rounds : Nat → Walking → Walking
  | 0, w => w
  | n + 1, w => rounds n w.round

end Walking

variable {p : Place} {stack : List Place}

theorem pending_cons (p : Place) (stack : List Place) : pending (p :: stack) = pending (p.children ++ stack) + 1 := by
  have hchildren : p.children.map Place.node = p.node.children := by
    simp [Place.children, Function.comp_def]
  simp only [pending, List.map_cons, List.map_append, hchildren, sizeAll, sizeAll_append, size_eq p.node]
  omega

/-- a walk yields as many places as are pending -/
theorem length_walkFrom (stack : List Place) : (walkFrom stack).length = pending stack := by
  induction stack using walkFrom.induct with
  | case1 =>
    rw [walkFrom]
    rfl
  | case2 p stack ih => rw [walkFrom, List.length_cons, ih, pending_cons]

namespace Walking

/-- **Rounds.** After some rounds, so many places of the walk have been yielded. -/
theorem yielded_rounds (n : Nat) (w : Walking) : (rounds n w).yielded = w.yielded ++ (walkFrom w.stack).take n := by
  induction n generalizing w with
  | zero => rw [rounds, List.take_zero, List.append_nil]
  | succ n ih =>
    obtain ⟨stack, yielded⟩ := w
    cases stack with
    | nil => rw [rounds, ih, round, walkFrom, List.take_nil, List.take_nil]
    | cons p stack => rw [rounds, ih, round, walkFrom, List.take_succ_cons, List.append_assoc, List.singleton_append]

/-- **The end.** The stack is empty when there were as many rounds as places are pending, and not before. -/
theorem stack_rounds (n : Nat) (w : Walking) : (rounds n w).stack = [] ↔ pending w.stack ≤ n := by
  induction n generalizing w with
  | zero =>
    obtain ⟨stack, yielded⟩ := w
    cases stack with
    | nil => exact iff_of_true rfl le_rfl
    | cons p stack =>
      refine iff_of_false (List.cons_ne_nil p stack) ?_
      change ¬pending (p :: stack) ≤ 0
      rw [pending_cons]
      exact Nat.not_succ_le_zero _
  | succ n ih =>
    obtain ⟨stack, yielded⟩ := w
    rw [rounds, ih]
    cases stack with
    | nil => exact iff_of_true (Nat.zero_le n) (Nat.zero_le _)
    | cons p stack =>
      change pending (p.children ++ stack) ≤ n ↔ pending (p :: stack) ≤ n + 1
      rw [pending_cons]
      exact Nat.succ_le_succ_iff.symm

end Walking

/-! ## Positions -/

mutual

/-- the positions of the nodes at and below a node, each as the child positions to follow -/
def positions : Tree → List (List Nat)
  | ⟨_, _, _, _, _, _, _, _, cs⟩ => [] :: positionsFrom 0 cs

/-- the positions below a node in its children from the `i`-th on -/
def positionsFrom (i : Nat) : List Tree → List (List Nat)
  | [] => []
  | t :: ts => t.positions.map (i :: ·) ++ positionsFrom (i + 1) ts

end

variable {t : Tree} {ts above : List Tree} {i : Nat} {a : List Nat}

theorem positions_eq (t : Tree) : t.positions = [] :: positionsFrom 0 t.children := by
  cases t
  rw [positions]

theorem mem_positionsFrom :
    a ∈ positionsFrom i ts ↔ ∃ j c rest, ts[j]? = some c ∧ rest ∈ c.positions ∧ a = (i + j) :: rest := by
  induction ts generalizing i with
  | nil => simp [positionsFrom]
  | cons t ts ih =>
    rw [positionsFrom, List.mem_append, List.mem_map, ih]
    constructor
    · rintro (⟨rest, hrest, rfl⟩ | ⟨j, c, rest, hc, hrest, rfl⟩)
      · exact ⟨0, t, rest, rfl, hrest, rfl⟩
      · exact ⟨j + 1, c, rest, hc, hrest, by rw [Nat.add_right_comm, Nat.add_assoc]⟩
    · rintro ⟨j, c, rest, hc, hrest, rfl⟩
      cases j with
      | zero =>
        cases hc
        exact Or.inl ⟨rest, hrest, rfl⟩
      | succ j => exact Or.inr ⟨j, c, rest, hc, hrest, by rw [Nat.add_right_comm, Nat.add_assoc]⟩

/-- **Document order.** A node comes before what is below it, and what is below a child before the next child. -/
theorem positions_ascending (t : Tree) : t.positions.Pairwise (· < ·) := by
  induction t using Tree.induct with
  | node t ih =>
    have hchildren : ∀ (ts : List Tree) (i : Nat), (∀ c ∈ ts, c.positions.Pairwise (· < ·)) →
        (positionsFrom i ts).Pairwise (· < ·) := by
      intro ts
      induction ts with
      | nil =>
        intro i _
        rw [positionsFrom]
        exact List.Pairwise.nil
      | cons c ts ihts =>
        intro i hts
        rw [positionsFrom, List.pairwise_append]
        refine ⟨?_, ihts (i + 1) fun x hx => hts x (List.mem_cons_of_mem _ hx), ?_⟩
        · refine List.pairwise_map.2 ((hts c List.mem_cons_self).imp fun h => ?_)
          exact List.cons_lt_cons_iff.2 (Or.inr ⟨rfl, h⟩)
        · intro a ha b hb
          obtain ⟨x, -, rfl⟩ := List.mem_map.1 ha
          obtain ⟨j, d, rest, -, -, rfl⟩ := mem_positionsFrom.1 hb
          exact List.cons_lt_cons_iff.2 (Or.inl (by omega))
    rw [positions_eq, List.pairwise_cons]
    refine ⟨fun b hb => ?_, hchildren t.children 0 ih⟩
    obtain ⟨j, d, rest, -, -, rfl⟩ := mem_positionsFrom.1 hb
    exact List.nil_lt_cons _ _

/-- the place at a position that begins with a child -/
theorem descend?_cons (p : Place) (i : Nat) (rest : List Nat) :
    p.descend? (i :: rest) = p.node.children[i]?.bind fun c => (⟨c, p.node :: p.above⟩ : Place).descend? rest := by
  rw [Place.descend?, Place.children, List.getElem?_map]
  cases p.node.children[i]? with
  | none => rfl
  | some c => rfl

/-- **All positions.** They are those at which there is a place. -/
theorem mem_positions : a ∈ t.positions ↔ ∃ q, (⟨t, above⟩ : Place).descend? a = some q := by
  induction t using Tree.induct generalizing above a with
  | node t ih =>
    rw [positions_eq, List.mem_cons]
    cases a with
    | nil => exact iff_of_true (Or.inl rfl) ⟨⟨t, above⟩, rfl⟩
    | cons i rest =>
      rw [mem_positionsFrom, descend?_cons]
      constructor
      · rintro (hnil | ⟨j, c, rest', hc, hrest, heq⟩)
        · cases hnil
        · rw [Nat.zero_add] at heq
          cases heq
          change ∃ q, (t.children[i]?.bind fun c => (⟨c, t :: above⟩ : Place).descend? rest) = some q
          rw [hc]
          exact (ih c (List.mem_of_getElem? hc)).1 hrest
      · rintro ⟨q, hq⟩
        obtain ⟨c, hc, hrest⟩ := Option.bind_eq_some_iff.1 hq
        exact Or.inr ⟨i, c, rest, hc, (ih c (List.mem_of_getElem? hc)).2 ⟨q, hrest⟩, by rw [Nat.zero_add]⟩

/-- **Places.** The places of a tree stand at its positions, in the same order. -/
theorem places_positions (above : List Tree) (t : Tree) :
    List.Forall₂ (fun a q => (⟨t, above⟩ : Place).descend? a = some q) t.positions (t.places above) := by
  induction t using Tree.induct generalizing above with
  | node t ih =>
    -- the children from the `i`-th on are a rest of all children
    have hchildren : ∀ (ts : List Tree) (i : Nat), (∀ j, ts[j]? = t.children[i + j]?) →
        List.Forall₂ (fun a q => (⟨t, above⟩ : Place).descend? a = some q) (positionsFrom i ts)
          (placesAll (t :: above) ts) := by
      intro ts
      induction ts with
      | nil =>
        intro i _
        rw [positionsFrom, placesAll]
        exact .nil
      | cons c ts ihts =>
        intro i hts
        have hc : t.children[i]? = some c := (hts 0).symm
        rw [positionsFrom, placesAll]
        refine List.rel_append ?_ (ihts (i + 1) fun j => ?_)
        · refine List.forall₂_map_left_iff.2 ((ih c (List.mem_of_getElem? hc) (t :: above)).imp fun a q h => ?_)
          rw [descend?_cons]
          change (t.children[i]?.bind fun c => (⟨c, t :: above⟩ : Place).descend? a) = some q
          rw [hc]
          exact h
        · rw [Nat.add_right_comm, Nat.add_assoc]
          exact hts (j + 1)
    rw [positions_eq, places_eq]
    refine .cons rfl (hchildren t.children 0 fun j => ?_)
    rw [Nat.zero_add]

end Tree

namespace Place

/-! ## Walks -/

/-- what a walk from a place is, and what is counted on it -/
structure Walked (p : Place) : Prop where
  /-- the stack is empty after as many rounds as there are nodes, and not before -/
  ends : ∀ n, (Tree.Walking.rounds n ⟨[p], []⟩).stack = [] ↔ p.node.size ≤ n
  /-- every round yields the next place -/
  yields : ∀ n, (Tree.Walking.rounds n ⟨[p], []⟩).yielded = p.walk.take n
  length : p.walk.length = p.node.size
  /-- a place comes before the walks of its children, and these follow from left to right -/
  recursion : p.walk = p :: p.children.flatMap walk
  nodes : p.walk.map node = p.node.preorder
  /-- every position has its place in the walk, and the positions ascend -/
  positions : ∃ positions : List (List Nat), positions.Pairwise (· < ·) ∧
    (∀ a, a ∈ positions ↔ ∃ q, p.descend? a = some q) ∧
    List.Forall₂ (fun a q => p.descend? a = some q) positions p.walk
  /-- strictly below are the walks of the children -/
  below : ∀ kind, p.descendants kind = (p.children.flatMap walk).filter fun q => q.node.kind = kind
  faults : p.node.countFaults = p.walk.countP fun q => q.node.kind = "ERROR" ∨ q.node.missing = true
  /-- where the reader says nothing about a node, there is an error in it when something is counted -/
  unflagged : p.node.errorFlag = none → (p.node.hasFaults = true ↔ 0 < p.node.countFaults)

theorem flatMap_walk_children (p : Place) :
    p.children.flatMap walk = Tree.placesAll (p.node :: p.above) p.node.children := by
  rw [Tree.placesAll_eq, children, List.flatMap_map]
  exact List.flatMap_congr fun c _ => walk_eq ⟨c, p.node :: p.above⟩

/-- on a walk only the nodes count, wherever it starts -/
theorem countFaults_eq (p : Place) :
    p.node.countFaults = p.walk.countP fun q => q.node.kind = "ERROR" ∨ q.node.missing = true := by
  have hcount : ∀ places : List Place, places.countP (fun q => q.node.kind = "ERROR" ∨ q.node.missing = true) =
      (places.map node).countP fun n => n.isFault := by
    intro places
    rw [List.countP_map]
    refine List.countP_congr fun q _ => ?_
    simp [Tree.isFault]
  rw [hcount, walk_eq, Tree.nodes_places, Tree.countFaults, ← List.countP_eq_length_filter, walk_eq,
    ← Tree.nodes_places [], List.countP_map]
  rfl

/-- **Walks.** A walk from a place ends. It yields the place and all that is below it once each, in document order, which
is the order of the recursion over the tree. Descendants and errors are found on it. -/
theorem walk_preorder (p : Place) : Walked p := by
  have hpending : Tree.pending [p] = p.node.size := rfl
  have hbelow := flatMap_walk_children p
  refine ⟨fun n => ?_, fun n => ?_, ?_, ?_, ?_, ?_, fun kind => ?_, countFaults_eq p, fun hflag => ?_⟩
  · rw [Tree.Walking.stack_rounds, hpending]
  · rw [Tree.Walking.yielded_rounds, List.nil_append]
    rfl
  · rw [walk, Tree.length_walkFrom, hpending]
  · rw [hbelow, walk_eq, Tree.places_eq]
  · rw [walk_eq, Tree.nodes_places]
  · rw [walk_eq]
    exact ⟨p.node.positions, p.node.positions_ascending, fun _ => Tree.mem_positions, p.node.places_positions p.above⟩
  · rw [hbelow, descendants_eq]
    exact List.filter_congr fun q _ => beq_eq_decide _ _
  · rw [Tree.hasFaults, hflag]
    exact decide_eq_true_iff

end Place

end SignalWiring
