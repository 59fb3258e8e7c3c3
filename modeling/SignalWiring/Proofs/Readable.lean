/-
Trees that can be read to the end.

A tree is readable when it is legible and no row or column is negative. Nothing in a scan of such a tree fails: every
delegate comes to an outcome, and every message is in words.

- `Tree.Readable`: what is asked of a tree, and its parts.
- `Place.Readable`: the same of a place in a tree, and what is read around it.
- `Tree.Readable.analyze`: a delegate comes to an outcome.
- `Scan.syntaxDiagnostics_total` and its neighbours: what is reported of an artifact as a whole comes to its diagnostics.
-/
import SignalWiring.Proofs.Delegates

namespace SignalWiring

/-! ## Computations that end in a value -/

section Total

variable {α β : Type}

/-- the computation ends in a value -/
def Total (x : Except Fault α) : Prop := ∃ a, x = .ok a

theorem Total.bind {x : Except Fault α} {f : α → Except Fault β} (hx : Total x) (hf : ∀ a, x = .ok a → Total (f a)) :
    Total (x >>= f) := by
  obtain ⟨a, ha⟩ := hx
  obtain ⟨b, hb⟩ := hf a ha
  rw [ha]
  exact ⟨b, hb⟩

theorem Total.map {x : Except Fault α} {f : α → β} (hx : Total x) : Total (x.map f) := by
  obtain ⟨a, ha⟩ := hx
  rw [ha]
  exact ⟨f a, rfl⟩

theorem Total.mapM {f : α → Except Fault β} {as : List α} (h : ∀ a ∈ as, Total (f a)) : Total (as.mapM f) :=
  exists_mapM h

instance (x : Except Fault α) : Decidable (Total x) :=
  decidable_of_iff (x.toBool = true) <| by
    cases x with
    | ok a => exact iff_of_true rfl ⟨a, rfl⟩
    | error f => exact iff_of_false Bool.false_ne_true fun ⟨_, h⟩ => nomatch h

theorem total_ok (a : α) : Total (.ok a : Except Fault α) := ⟨a, rfl⟩

end Total

/-! ## Readable trees -/

namespace Tree

/-- every text can be decoded, and no row or column is negative -/
def Readable (t : Tree) : Prop := ∀ n ∈ t.preorder, Total n.source ∧ 0 ≤ n.row ∧ 0 ≤ n.column

instance (t : Tree) : Decidable t.Readable := inferInstanceAs (Decidable (∀ n ∈ t.preorder, _))

namespace Readable

variable {t n : Tree} {above : List Tree}

theorem of_mem (h : t.Readable) (hn : n ∈ t.preorder) : n.Readable := fun _ hx => h _ (preorder_subset hn hx)

theorem child (h : t.Readable) (hn : n ∈ t.children) : n.Readable := h.of_mem (child_mem_preorder hn)

theorem legible (h : t.Readable) : t.Legible := fun n hn => (h n hn).1

theorem source (h : t.Readable) : Total t.source := ⟨_, h.legible.source_eq⟩

theorem fieldSource (h : t.Readable) (name : String) : Total (t.fieldSource name) := ⟨_, h.legible.fieldSource_eq name⟩

theorem parameterNames (h : t.Readable) : Total t.parameterNames := ⟨_, h.legible.parameterNames_eq⟩

theorem isMarked (h : t.Readable) {marker : String} (hmarker : marker ≠ "") : Total (t.isMarked marker) :=
  ⟨_, h.legible.isMarked_eq hmarker⟩

theorem location (h : t.Readable) (file : Path) : Total (t.location (some file)) := by
  obtain ⟨-, hrow, hcolumn⟩ := h t (self_mem_preorder t)
  obtain ⟨location, hlocation, -⟩ := exists_location hrow hcolumn file
  exact ⟨location, hlocation⟩

/-! ### Containers and namespaces -/

theorem isContainer (h : t.Readable) (name : String) : Total (t.isContainer name) := by
  unfold Tree.isContainer
  split
  · exact (h.fieldSource "name").map
  · exact total_ok _

theorem anyContainer (h : ∀ n ∈ above, n.Readable) (name : String) : Total (anyContainer name above) := by
  induction above with
  | nil => exact total_ok _
  | cons t rest ih =>
    refine ((h t List.mem_cons_self).isContainer name).bind fun found _ => ?_
    split
    · exact total_ok _
    · exact ih fun n hn => h n (List.mem_cons_of_mem _ hn)

theorem enclosingNames (h : ∀ n ∈ above, n.Readable) : Total (enclosingNames above) := by
  induction above with
  | nil => exact total_ok _
  | cons t rest ih =>
    have hrest := ih fun n hn => h n (List.mem_cons_of_mem _ hn)
    unfold Tree.enclosingNames
    split
    · refine ((h t List.mem_cons_self).fieldSource "name").bind fun name _ => ?_
      exact hrest.bind fun _ _ => total_ok _
    · exact hrest

theorem precedingName (start : Int) (found : String) {siblings : List Tree} (h : ∀ n ∈ siblings, n.Readable) :
    Total (precedingName start found siblings) := by
  induction siblings generalizing found with
  | nil => exact total_ok _
  | cons t rest ih =>
    have hrest : ∀ n ∈ rest, n.Readable := fun n hn => h n (List.mem_cons_of_mem _ hn)
    unfold Tree.precedingName
    split
    · exact total_ok _
    · split
      · exact ((h t List.mem_cons_self).fieldSource "name").bind fun name _ => ih _ hrest
      · exact ih found hrest

end Readable

end Tree

/-! ## Places of a readable tree -/

/-- the place is in a readable tree -/
structure Place.Readable (p : Place) : Prop where
  node : p.node.Readable
  above : ∀ n ∈ p.above, n.Readable

namespace Place.Readable

variable {t : Tree} {p : Place}

theorem of_mem (h : t.Readable) (hp : p ∈ t.places []) : p.Readable := by
  refine ⟨h.of_mem (Tree.node_mem_preorder hp), fun n hn => ?_⟩
  rcases Tree.mem_of_mem_above hp hn with hnil | hmem
  · cases hnil
  · exact h.of_mem hmem

theorem root (h : p.Readable) : p.root.Readable := by
  unfold Place.root
  rw [List.getLastD_eq_getLast?]
  cases hlast : p.above.getLast? with
  | none => exact h.node
  | some n => exact h.above n (List.mem_of_getLast? hlast)

theorem isOutermost (h : p.Readable) (name : String) : Total (p.isOutermost name) := by
  refine (h.node.isContainer name).bind fun found _ => ?_
  split
  · exact (Tree.Readable.anyContainer h.above name).bind fun _ _ => total_ok _
  · exact total_ok _

theorem outermost {places : List Place} (h : ∀ p ∈ places, p.Readable) (name : String) :
    Total (Place.outermost name places) := by
  induction places with
  | nil => exact total_ok _
  | cons p rest ih =>
    refine ((h p List.mem_cons_self).isOutermost name).bind fun keep _ => ?_
    exact (ih fun q hq => h q (List.mem_cons_of_mem _ hq)).bind fun _ _ => total_ok _

theorem namespaceName (h : p.Readable) : Total p.namespaceName := by
  refine (Tree.Readable.enclosingNames h.above).bind fun names _ => ?_
  split
  · exact Tree.Readable.precedingName _ _ fun _ hn => h.root.child hn
  · exact total_ok _

end Place.Readable

/-! ## Diagnostics and delegates -/

theorem Diagnostic.make_total (kind : DiagnosticKind) (severity : Severity) {message artifact : String}
    (location : Option Location) (subject : Option String) (hmessage : message ≠ "") (hartifact : artifact ≠ "") :
    Total (Diagnostic.make kind severity message artifact location subject) := ⟨_, make_eq_ok hmessage hartifact⟩

/-- **Delegates.** A readable delegate comes to an outcome. -/
theorem Tree.Readable.analyze {t : Tree} (h : t.Readable) (m : Marking) {path : Path} (hpath : path.name ≠ "") :
    Total (m.analyze (some t) (some path)) := by
  obtain ⟨location, hlocation⟩ := h.location path
  by_cases hmarked : t.Bears m.marker
  · rcases m.accepts_or_flawed t with haccepts | ⟨f, hf⟩
    · obtain ⟨handler, hanalyze, -⟩ := Marking.analyze_of_accepts h.legible hlocation hmarked haccepts
      exact ⟨_, hanalyze⟩
    · exact ⟨_, Marking.analyze_of_flawed h.legible hlocation hpath hmarked hf⟩
  · exact ⟨_, Marking.analyze_of_unmarked h.legible hlocation hmarked⟩

/-! ## Scans -/

namespace Scan

variable (config : Config) (a : Artifact)

theorem syntaxDiagnostics_total (faults : Nat) : Total (syntaxDiagnostics a.id faults) := by
  unfold syntaxDiagnostics
  split
  · exact total_ok _
  · exact (Diagnostic.make_total _ _ _ _ (append_ne_empty_right (by decide)) a.id_ne_empty).map

theorem conflictDiagnostics_total (chosen : String) {places : List Place} (h : ∀ p ∈ places, p.Readable) :
    Total (conflictDiagnostics config a chosen places) := by
  induction places with
  | nil => exact total_ok _
  | cons p rest ih =>
    have hp := h p List.mem_cons_self
    have hrest := ih fun q hq => h q (List.mem_cons_of_mem _ hq)
    refine hp.namespaceName.bind fun other _ => ?_
    split
    · exact hrest
    · refine (hp.node.location a.path).bind fun location _ => ?_
      refine (Diagnostic.make_total _ _ _ _ (append_ne_empty_right (by decide)) a.id_ne_empty).bind fun d _ => ?_
      exact hrest.bind fun _ _ => total_ok _

theorem globalDiagnostics_total (chosen : String) {first : Place} (h : first.Readable) :
    Total (globalDiagnostics config a chosen first) := by
  unfold globalDiagnostics
  split
  · exact total_ok _
  · refine (h.node.location a.path).bind fun location _ => ?_
    exact (Diagnostic.make_total _ _ _ _ (by decide) a.id_ne_empty).bind fun _ _ => total_ok _

end Scan

end SignalWiring
