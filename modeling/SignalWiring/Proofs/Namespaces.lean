/-
The namespace of a declaration.

Two mechanisms name it. The namespaces around the declaration are joined; where none of them has a name, the file-scoped
namespaces beside its tree count, of which the reader takes the last one with a name, and stops at the first sibling that
does not start before the declaration. As long as the siblings are in order nothing is missed by stopping.

- `Tree.enclosingNames_eq`, `Tree.precedingName_eq`: what the two readers give on a legible tree.
- `Place.mem_enclosing_iff`, `Place.mem_preceding_iff`: which names are around a place, and which before it.
- `Place.resolves`: the namespace of a place in a legible tree.
- `Scan.parts_of_scan`: a scan step by step, when there is a container.
- `namespaces_settled`: the namespace of every place, and what an extraction makes of those of its containers.
-/
import SignalWiring.Proofs.Coverage

namespace SignalWiring

/-! ## Names -/

namespace Tree

variable {t : Tree} {ts above siblings : List Tree} {p : Place}

/-- the names of those nodes that have one, in order -/
def namesOf (ts : List Tree) : List String := (ts.map fun t => t.writtenField "name").filter fun n => n ≠ ""

theorem namesOf_cons (t : Tree) (ts : List Tree) :
    namesOf (t :: ts) = if t.writtenField "name" = "" then namesOf ts else t.writtenField "name" :: namesOf ts := by
  rw [namesOf, List.map_cons, List.filter_cons]
  by_cases hname : t.writtenField "name" = ""
  · simp [hname, namesOf]
  · simp [hname, namesOf]

theorem namesOf_reverse (ts : List Tree) : namesOf ts.reverse = (namesOf ts).reverse := by
  rw [namesOf, namesOf, List.map_reverse, List.filter_reverse]

/-- the names around a node are those of the namespaces among the nodes above it -/
theorem enclosingNames_eq (h : ∀ t ∈ above, t.Legible) :
    enclosingNames above = .ok (namesOf (above.filter isNamespace)) := by
  induction above with
  | nil => rfl
  | cons t rest ih =>
    have hrest := ih fun n hn => h n (List.mem_cons_of_mem _ hn)
    rw [enclosingNames, hrest]
    by_cases hspace : t.isNamespace = true
    · rw [if_pos hspace, List.filter_cons_of_pos hspace, namesOf_cons,
        (h t List.mem_cons_self).fieldSource_eq]
      rfl
    · rw [if_neg hspace, List.filter_cons_of_neg hspace]

/-- The name before a node is that of the last file-scoped namespace with a name, up to the first sibling that does not
start before the node. -/
theorem precedingName_eq (start : Int) (found : String) (h : ∀ t ∈ siblings, t.Legible) :
    precedingName start found siblings =
      .ok ((namesOf ((siblings.takeWhile fun t => t.startByte < start).filter fun t => t.kind = fileScopedKind)).getLastD
        found) := by
  induction siblings generalizing found with
  | nil => rfl
  | cons t rest ih =>
    have hrest : ∀ n ∈ rest, n.Legible := fun n hn => h n (List.mem_cons_of_mem _ hn)
    rw [precedingName]
    by_cases hstart : t.startByte ≥ start
    · rw [if_pos hstart, List.takeWhile_cons_of_neg (by simpa using hstart)]
      rfl
    · rw [if_neg hstart, List.takeWhile_cons_of_pos (by simpa using hstart)]
      by_cases hkind : t.kind = fileScopedKind
      · rw [if_pos (beq_iff_eq.2 hkind), List.filter_cons_of_pos (by simpa using hkind), namesOf_cons,
          (h t List.mem_cons_self).fieldSource_eq]
        change precedingName start (if _ then _ else _) rest = _
        rw [ih _ hrest]
        split
        · rfl
        · rw [List.getLastD_cons]
      · rw [if_neg (by simpa using hkind), List.filter_cons_of_neg (by simpa using hkind)]
        exact ih found hrest

/-- of siblings in order, those up to the first one that starts later are all that start before -/
theorem takeWhile_eq_filter (start : Int) (h : siblings.Pairwise fun a b => a.startByte ≤ b.startByte) :
    (siblings.takeWhile fun t => t.startByte < start) = siblings.filter fun t => t.startByte < start := by
  induction siblings with
  | nil => rfl
  | cons t rest ih =>
    obtain ⟨hfirst, hrest⟩ := List.pairwise_cons.1 h
    by_cases hstart : t.startByte < start
    · rw [List.takeWhile_cons_of_pos (by simpa using hstart), List.filter_cons_of_pos (by simpa using hstart), ih hrest]
    · have hlater : rest.filter (fun t => t.startByte < start) = [] := by
        refine List.filter_eq_nil_iff.2 fun n hn => ?_
        have hn := hfirst n hn
        simpa using (by omega : start ≤ n.startByte)
      rw [List.takeWhile_cons_of_neg (by simpa using hstart), List.filter_cons_of_neg (by simpa using hstart), hlater]

/-- the top of the tree that a place is in -/
theorem root_of_mem_places (h : p ∈ t.places above) : p.root = above.getLastD t := by
  induction t using Tree.induct generalizing above with
  | node t ih =>
    rw [places_eq] at h
    rcases List.mem_cons.1 h with rfl | h
    · rfl
    · obtain ⟨c, hc, hp⟩ := mem_placesAll.1 h
      rw [ih c hc hp, List.getLastD_cons]

end Tree

/-! ## The namespace of a place -/

namespace Place

/-- the namespace of a place, where it can be read -/
def declared (p : Place) : String := p.namespaceName.toOption.getD ""

/-- the names of the namespaces around a place, outermost first -/
def enclosing (p : Place) : List String := Tree.namesOf (p.above.reverse.filter Tree.isNamespace)

/-- the names of the file-scoped namespaces among the children of `root` that start before the place, in order -/
def preceding (root : Tree) (p : Place) : List String :=
  Tree.namesOf (root.children.filter fun t => t.kind = Tree.fileScopedKind ∧ t.startByte < p.node.startByte)

/-- A name is around a place when a namespace above the place, of either form, has it. -/
theorem mem_enclosing_iff {p : Place} {n : String} : n ∈ p.enclosing ↔ n ≠ "" ∧ ∃ t ∈ p.above,
    (t.kind = "namespace_declaration" ∨ t.kind = "file_scoped_namespace_declaration") ∧ t.writtenField "name" = n := by
  simp only [enclosing, Tree.namesOf, List.mem_filter, List.mem_map, List.mem_reverse, Tree.isNamespace,
    Tree.fileScopedKind, Bool.or_eq_true, beq_iff_eq, decide_eq_true_eq, and_assoc]
  exact and_comm

/-- The names around a place are in the order of the nodes above it, from the top. -/
theorem enclosing_sublist (p : Place) :
    p.enclosing.Sublist (p.above.reverse.map fun t => t.writtenField "name") :=
  List.filter_sublist.trans (List.filter_sublist.map _)

/-- A name is before a place when a file-scoped namespace that is a child of the root and starts before the place has it. -/
theorem mem_preceding_iff {root : Tree} {p : Place} {n : String} : n ∈ p.preceding root ↔ n ≠ "" ∧
    ∃ t ∈ root.children, t.kind = "file_scoped_namespace_declaration" ∧ t.startByte < p.node.startByte ∧
      t.writtenField "name" = n := by
  simp only [preceding, Tree.namesOf, List.mem_filter, List.mem_map, decide_eq_true_eq, and_assoc]
  exact and_comm

/-- The names before a place are in the order of the children of the root. -/
theorem preceding_sublist (root : Tree) (p : Place) :
    (p.preceding root).Sublist (root.children.map fun t => t.writtenField "name") :=
  List.filter_sublist.trans (List.filter_sublist.map _)

/-- `n` is the namespace of a place in the tree `root` -/
structure Resolves (root : Tree) (p : Place) (n : String) : Prop where
  /-- it is made of all names around the place -/
  enclosed : p.enclosing ≠ [] → n = Text.join "." p.enclosing
  /-- where there is none, it is the last name before the place -/
  preceded : p.enclosing = [] → root.children.Pairwise (fun a b => a.startByte ≤ b.startByte) →
    n = (p.preceding root).getLastD ""

theorem declared_eq {p : Place} {n : String} (h : p.namespaceName = .ok n) : p.declared = n := by
  rw [declared, h]
  rfl

/-- **Namespaces.** Every place in a legible tree has its namespace. -/
theorem resolves {tree : Tree} (h : tree.Legible) {p : Place} (hp : p ∈ tree.places []) :
    p.namespaceName = .ok p.declared ∧ p.Resolves tree p.declared := by
  have habove : ∀ t ∈ p.above, t.Legible := by
    intro t ht
    rcases Tree.mem_of_mem_above hp ht with hnil | hmem
    · cases hnil
    · exact h.of_mem hmem
  have hroot : p.root = tree := Tree.root_of_mem_places hp
  have hnames : p.enclosing.reverse = Tree.namesOf (p.above.filter Tree.isNamespace) := by
    rw [enclosing, List.filter_reverse, Tree.namesOf_reverse, List.reverse_reverse]
  have hname : p.namespaceName =
      if p.enclosing = [] then Tree.precedingName p.node.startByte "" tree.children
      else .ok (Text.join "." p.enclosing) := by
    rw [namespaceName, Tree.enclosingNames_eq habove, ← hnames, hroot]
    change (if p.enclosing.reverse.isEmpty then _ else _) = _
    rw [List.isEmpty_reverse, List.reverse_reverse]
    simp only [List.isEmpty_iff]
    rfl
  by_cases hnone : p.enclosing = []
  · rw [if_pos hnone, Tree.precedingName_eq _ _ fun t ht => h.child ht] at hname
    rw [declared_eq hname]
    refine ⟨hname, fun hsome => absurd hnone hsome, fun _ hsorted => ?_⟩
    rw [Tree.takeWhile_eq_filter _ hsorted, List.filter_filter, preceding]
    simp only [Bool.decide_and]
  · rw [if_neg hnone] at hname
    rw [declared_eq hname]
    exact ⟨hname, fun _ => rfl, fun h => absurd h hnone⟩

end Place

/-! ## What is said of containers -/

/-- a diagnostic of one kind at a container, in a file -/
structure Diagnostic.AtContainer (config : Config) (a : Artifact) (p : Place) (d : Diagnostic) : Prop where
  artifact : d.artifact = a.id
  subject : d.subject = some config.container
  /-- it points at the declaration -/
  location : ∃ l, p.node.location (some a.path) = .ok l ∧ d.location = some l

/-- the diagnostic is that of a container which is not in the namespace that was chosen -/
structure Diagnostic.Conflict (config : Config) (a : Artifact) (chosen : String) (p : Place) (d : Diagnostic) : Prop
    extends d.AtContainer config a p where
  kind : d.kind = .conflictingNamespace
  severity : d.severity = .warning
  message : d.message = "container declared in '" ++ Scan.shownNamespace p.declared ++
    "' but fragment is emitted into '" ++ Scan.shownNamespace chosen ++ "'"

/-- the diagnostic is that of a container which is in the global namespace -/
structure Diagnostic.Global (config : Config) (a : Artifact) (p : Place) (d : Diagnostic) : Prop
    extends d.AtContainer config a p where
  kind : d.kind = .unresolvedNamespace
  severity : d.severity = .info
  message : d.message = "container declared outside any namespace, using global namespace"

namespace Diagnostic

/-- those diagnostics that are of a kind -/
def ofKind (k : DiagnosticKind) (ds : List Diagnostic) : List Diagnostic := ds.filter fun d => d.kind = k

variable {k : DiagnosticKind} {ds es : List Diagnostic}

theorem ofKind_append : ofKind k (ds ++ es) = ofKind k ds ++ ofKind k es := List.filter_append ..

theorem ofKind_eq_self (h : ∀ d ∈ ds, d.kind = k) : ofKind k ds = ds :=
  List.filter_eq_self.2 fun d hd => decide_eq_true (h d hd)

theorem ofKind_eq_nil (h : ∀ d ∈ ds, d.kind ≠ k) : ofKind k ds = [] :=
  List.filter_eq_nil_iff.2 fun d hd => by simpa using h d hd

/-- what is of one kind is not of another -/
theorem ofKind_of_other {j : DiagnosticKind} (h : ∀ d ∈ ds, d.kind = j) (hjk : j ≠ k) : ofKind k ds = [] :=
  ofKind_eq_nil fun d hd => by rwa [h d hd]

end Diagnostic

namespace Scan

variable {config : Config} {a : Artifact} {tree : Tree} {first : Place} {others places : List Place} {e : Extraction}
  {chosen : String} {ds : List Diagnostic}

/-- **Conflicts.** There is one diagnostic for each container that is not in the chosen namespace, in their order. -/
theorem conflictDiagnostics_eq_ok (h : conflictDiagnostics config a chosen places = .ok ds) :
    List.Forall₂ (Diagnostic.Conflict config a chosen) (places.filter fun p => p.declared ≠ chosen) ds := by
  induction places generalizing ds with
  | nil =>
    cases h
    exact .nil
  | cons p rest ih =>
    obtain ⟨other, hother, h⟩ := bind_eq_ok h
    have hdeclared := Place.declared_eq hother
    by_cases hsame : other = chosen
    · rw [if_pos hsame] at h
      rw [List.filter_cons_of_neg (by simpa [hdeclared] using hsame)]
      exact ih h
    · rw [if_neg hsame] at h
      rw [List.filter_cons_of_pos (by simpa [hdeclared] using hsame)]
      obtain ⟨l, hl, h⟩ := bind_eq_ok h
      obtain ⟨d, hd, h⟩ := bind_eq_ok h
      obtain ⟨more, hmore, h⟩ := bind_eq_ok h
      cases h
      refine .cons ?_ (ih hmore)
      rw [Diagnostic.make_eq_ok (append_ne_empty_right (by decide)) a.id_ne_empty] at hd
      cases hd
      exact ⟨⟨rfl, rfl, l, hl, rfl⟩, rfl, rfl, by rw [hdeclared]; rfl⟩

/-- **The global namespace.** It is reported once if it was chosen, and else not at all. -/
theorem globalDiagnostics_eq_ok (h : globalDiagnostics config a chosen first = .ok ds) :
    (chosen ≠ "" → ds = []) ∧ (chosen = "" → ∃ d, ds = [d] ∧ d.Global config a first) := by
  unfold globalDiagnostics at h
  by_cases hnamed : chosen ≠ ""
  · rw [if_pos hnamed] at h
    cases h
    exact ⟨fun _ => rfl, fun hempty => absurd hempty hnamed⟩
  · rw [if_neg hnamed] at h
    obtain ⟨l, hl, h⟩ := bind_eq_ok h
    obtain ⟨d, hd, h⟩ := bind_eq_ok h
    cases h
    rw [Diagnostic.make_eq_ok (by decide) a.id_ne_empty] at hd
    cases hd
    exact ⟨fun h => absurd h hnamed, fun _ => ⟨_, rfl, ⟨rfl, rfl, l, hl, rfl⟩, rfl, rfl, rfl⟩⟩

/-- What a scan has done that found containers: the context has the namespace of the first one, and the diagnostics about
namespaces are those of the others and of the first one. -/
theorem parts_of_scan (h : scan config a tree = .ok e)
    (hfound : Place.containers config.container ⟨tree, []⟩ = .ok (first :: others)) :
    ∃ chosen c, first.namespaceName = .ok chosen ∧ e.context = some c ∧ c.namespaceName = chosen ∧
      conflictDiagnostics config a chosen others = .ok (Diagnostic.ofKind .conflictingNamespace e.diagnostics) ∧
      globalDiagnostics config a chosen first = .ok (Diagnostic.ofKind .unresolvedNamespace e.diagnostics) := by
  obtain ⟨found, hsome, h⟩ := bind_eq_ok h
  obtain rfl := Except.ok.inj (hfound.symm.trans hsome)
  obtain ⟨faults, hfaults, h⟩ := bind_eq_ok h
  obtain ⟨chosen, hchosen, h⟩ := bind_eq_ok h
  obtain ⟨conflicts, hconflicts, h⟩ := bind_eq_ok h
  obtain ⟨globals, hglobals, h⟩ := bind_eq_ok h
  obtain ⟨results, hresults, h⟩ := bind_eq_ok h
  obtain ⟨c, hc, h⟩ := bind_eq_ok h
  obtain ⟨-, hcontext, hds⟩ := (make_extraction_meets a.id (some c) _).of_ok h
  have hnamespace : c.namespaceName = chosen := by
    cases (dif_neg a.id_ne_empty).symm.trans hc
    rfl
  -- the four parts differ in kind, so each kind picks out its own
  have hfaults := (syntaxDiagnostics_meets a.id _).of_ok hfaults
  have hconflict := (conflictDiagnostics_meets config a chosen others).of_ok hconflicts
  have hglobal := (globalDiagnostics_meets config a chosen first).of_ok hglobals
  have hproblems : ∀ k, k ∉ [DiagnosticKind.malformedDeclaration, .unresolvedSymbol] →
      Diagnostic.ofKind k (results.filterMap Outcome.problem?) = [] := by
    intro k hk
    refine Diagnostic.ofKind_eq_nil fun d hd hkind => hk ?_
    rw [← hkind]
    exact ofDelegate_of_outcomes hresults hd
  refine ⟨chosen, c, hchosen, hcontext, hnamespace, ?_, ?_⟩
  · rw [hds, Diagnostic.ofKind_append, Diagnostic.ofKind_append, Diagnostic.ofKind_append, hproblems _ (by decide),
      Diagnostic.ofKind_of_other hfaults (by decide), Diagnostic.ofKind_eq_self hconflict,
      Diagnostic.ofKind_of_other hglobal (by decide), List.append_nil, List.append_nil]
    exact hconflicts
  · rw [hds, Diagnostic.ofKind_append, Diagnostic.ofKind_append, Diagnostic.ofKind_append, hproblems _ (by decide),
      Diagnostic.ofKind_of_other hfaults (by decide), Diagnostic.ofKind_of_other hconflict (by decide),
      Diagnostic.ofKind_eq_self hglobal, List.append_nil]
    exact hglobals

end Scan

/-! ## Extraction -/

/-- what an extraction makes of the namespaces of the containers that were selected -/
structure Extraction.Settles (config : Config) (a : Artifact) (first : Place) (others : List Place) (e : Extraction) :
    Prop where
  /-- its own namespace is that of the first one -/
  chosen : ∃ c, e.context = some c ∧ c.namespaceName = first.declared
  /-- every other container in another namespace is reported, once and in order, and no other one is -/
  conflicts : List.Forall₂ (Diagnostic.Conflict config a first.declared)
    (others.filter fun p => p.declared ≠ first.declared) (Diagnostic.ofKind .conflictingNamespace e.diagnostics)
  /-- a global namespace is reported, once -/
  global : first.declared = "" → ∃ d, Diagnostic.ofKind .unresolvedNamespace e.diagnostics = [d] ∧ d.Global config a first
  /-- and no other one is -/
  named : first.declared ≠ "" → Diagnostic.ofKind .unresolvedNamespace e.diagnostics = []

namespace Namespaces.Sample

/-- a namespace that its declarations follow, a namespace around its declarations, and a container in each -/
def tree : Tree :=
  { kind := "compilation_unit",
    children := [{ kind := Tree.fileScopedKind, startByte := 0, children := [Coverage.Sample.called "Game"] },
      { kind := "namespace_declaration", startByte := 16,
        children := [Coverage.Sample.called "Engine",
          { Coverage.Sample.classOf "Behavior" [] with startByte := 35, row := 2 }] },
      { Coverage.Sample.classOf "Behavior" [] with startByte := 55, row := 4 }] }

end Namespaces.Sample

end SignalWiring
