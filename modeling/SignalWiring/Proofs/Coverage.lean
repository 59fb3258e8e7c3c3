/-
Extraction loses and repeats nothing.

The containers of a tree are its classes with the container name. An extraction selects the outermost of them and walks
over what is strictly below each. Put one after the other, these walks are a single pass over the whole tree, which keeps
the delegates that have some container above them: a container in a container is not walked over twice, and nothing below
a container is left out.

- `outermost_eq_ok`: what is selected.
- `delegates_outermost`: the walks below the selected containers are one pass over the tree.
- `Tree.Readable.scan`: a readable tree comes to an extraction.
- `context_eq_none_iff`, `outcomes_of_scan`: when there is a context, and what is read off the outcomes.
- `extract_covers`: what an extraction of a readable tree has, as one pass over the tree.
-/
import SignalWiring.Proofs.Readable

namespace SignalWiring

/-! ## Containers -/

/-- the node is a class whose name field is `name` -/
def Tree.IsContainer (name : String) (t : Tree) : Prop :=
  t.kind = "class_declaration" ∧ t.fieldSource "name" = .ok name

/-- there is a container above the place -/
def Place.Covered (name : String) (p : Place) : Prop := ∃ t ∈ p.above, t.IsContainer name

/-- the place is a container, and there is none above it -/
def Place.Outermost (name : String) (p : Place) : Prop := p.node.IsContainer name ∧ ¬p.Covered name

instance (name : String) (t : Tree) : Decidable (t.IsContainer name) :=
  decidable_of_iff (t.kind = "class_declaration" ∧ (t.fieldSource "name").toOption = some name) <|
    and_congr_right fun _ => by
      cases t.fieldSource "name" with
      | ok s => simp [Except.toOption]
      | error f => simp [Except.toOption]

instance (name : String) (p : Place) : Decidable (p.Covered name) :=
  inferInstanceAs (Decidable (∃ t ∈ p.above, t.IsContainer name))

instance (name : String) (p : Place) : Decidable (p.Outermost name) :=
  inferInstanceAs (Decidable (_ ∧ ¬_))

section Containers

variable {name : String} {t : Tree} {above : List Tree} {p : Place} {places found : List Place} {b : Bool}

theorem Tree.isContainer_eq_ok (h : t.isContainer name = .ok b) : b = decide (t.IsContainer name) := by
  unfold isContainer at h
  split at h
  · rename_i hkind
    cases hname : t.fieldSource "name" with
    | error f =>
      rw [hname] at h
      cases h
    | ok s =>
      rw [hname] at h
      cases h
      have hkind : t.kind = "class_declaration" := beq_iff_eq.1 hkind
      simp [IsContainer, hkind, hname]
      rfl
  · rename_i hkind
    cases h
    have hkind : t.kind ≠ "class_declaration" := fun heq => hkind (beq_iff_eq.2 heq)
    simp [IsContainer, hkind]

theorem Tree.anyContainer_eq_ok (h : anyContainer name above = .ok b) :
    b = decide (∃ t ∈ above, t.IsContainer name) := by
  induction above with
  | nil =>
    cases h
    rfl
  | cons t rest ih =>
    obtain ⟨found, hfound, h⟩ := bind_eq_ok h
    have hself := isContainer_eq_ok hfound
    cases found with
    | true =>
      cases h
      exact (decide_eq_true ⟨t, List.mem_cons_self, of_decide_eq_true hself.symm⟩).symm
    | false =>
      have hself : ¬t.IsContainer name := of_decide_eq_false hself.symm
      rw [ih h]
      simp [hself]

theorem Place.isOutermost_eq_ok (h : p.isOutermost name = .ok b) : b = decide (p.Outermost name) := by
  obtain ⟨found, hfound, h⟩ := bind_eq_ok h
  have hself := Tree.isContainer_eq_ok hfound
  cases found with
  | true =>
    obtain ⟨covered, hcovered, h⟩ := bind_eq_ok h
    cases h
    have hself : p.node.IsContainer name := of_decide_eq_true hself.symm
    have habove : covered = decide (p.Covered name) := Tree.anyContainer_eq_ok hcovered
    simp [Outermost, hself, habove]
  | false =>
    cases h
    have hself : ¬p.node.IsContainer name := of_decide_eq_false hself.symm
    simp [Outermost, hself]

/-- **Selection.** What is selected among some places are the containers with none above them. -/
theorem Place.outermost_eq_ok (h : outermost name places = .ok found) :
    found = places.filter fun p => p.Outermost name := by
  induction places generalizing found with
  | nil =>
    cases h
    rfl
  | cons p rest ih =>
    obtain ⟨keep, hkeep, h⟩ := bind_eq_ok h
    obtain ⟨more, hmore, h⟩ := bind_eq_ok h
    cases h
    rw [List.filter_cons, ← isOutermost_eq_ok hkeep, ih hmore]

end Containers

/-! ## One pass -/

section Pass

variable {name : String} {t : Tree} {above : List Tree}

/-- the place is a delegate declaration with a container strictly above it -/
def Place.IsDelegate (name : String) (p : Place) : Prop := p.node.kind = "delegate_declaration" ∧ p.Covered name

instance (p : Place) : Decidable (p.IsDelegate name) := inferInstanceAs (Decidable (_ ∧ _))

/-- a container is above everything strictly below it -/
theorem covered_of_below (h : t.IsContainer name) {p : Place} (hp : p ∈ Tree.placesAll (t :: above) t.children) :
    p.Covered name := by
  obtain ⟨c, -, hp⟩ := Tree.mem_placesAll.1 hp
  exact ⟨t, (Tree.suffix_of_mem_places hp).subset List.mem_cons_self, h⟩

/-- where there is a container there is an outermost one -/
theorem exists_outermost (hfree : ∀ n ∈ above, ¬n.IsContainer name) (h : ∃ n ∈ t.preorder, n.IsContainer name) :
    ∃ p ∈ t.places above, p.Outermost name := by
  induction t using Tree.induct generalizing above with
  | node t ih =>
    rw [Tree.places_eq]
    by_cases ht : t.IsContainer name
    · exact ⟨⟨t, above⟩, List.mem_cons_self, ht, fun ⟨n, hn, hcontainer⟩ => hfree n hn hcontainer⟩
    · obtain ⟨n, hn, hcontainer⟩ := h
      rw [Tree.preorder_eq] at hn
      rcases List.mem_cons.1 hn with rfl | hn
      · exact absurd hcontainer ht
      · obtain ⟨c, hc, hn⟩ := Tree.mem_preorderAll.1 hn
        obtain ⟨p, hp, hout⟩ := ih c hc (List.forall_mem_cons.2 ⟨ht, hfree⟩) ⟨n, hn, hcontainer⟩
        exact ⟨p, List.mem_cons_of_mem _ (Tree.mem_placesAll.2 ⟨c, hc, hp⟩), hout⟩

/-- **One pass.** The delegates strictly below the outermost containers, container by container, are the delegates that
have some container above them, in document order and each of them once. -/
theorem delegates_outermost (hfree : ∀ n ∈ above, ¬n.IsContainer name) :
    Scan.delegates ((t.places above).filter fun p => p.Outermost name) =
      (t.places above).filter fun p => p.IsDelegate name := by
  induction t using Tree.induct generalizing above with
  | node t ih =>
    have hself : ¬(⟨t, above⟩ : Place).Covered name := fun ⟨n, hn, hcontainer⟩ => hfree n hn hcontainer
    have hdelegate : decide ((⟨t, above⟩ : Place).IsDelegate name) = false := decide_eq_false fun h => hself h.2
    rw [Tree.places_eq, List.filter_cons, List.filter_cons, hdelegate, if_neg Bool.false_ne_true]
    by_cases ht : t.IsContainer name
    · -- everything below is covered, so this is the one container that is selected
      have hnone : (Tree.placesAll (t :: above) t.children).filter (fun p => p.Outermost name) = [] := by
        refine List.filter_eq_nil_iff.2 fun p hp => ?_
        have hcovered : ¬p.Outermost name := fun hout => hout.2 (covered_of_below ht hp)
        simpa using hcovered
      have hout : decide ((⟨t, above⟩ : Place).Outermost name) = true := decide_eq_true ⟨ht, hself⟩
      rw [hout, if_pos rfl, hnone, Scan.delegates, List.flatMap_cons, List.flatMap_nil, List.append_nil,
        Place.descendants_eq]
      refine List.filter_congr fun p hp => ?_
      simp [Place.IsDelegate, covered_of_below ht hp, beq_eq_decide]
    · -- nothing is covered by this node, so the children are passed over one by one
      have hout : decide ((⟨t, above⟩ : Place).Outermost name) = false := decide_eq_false fun h => ht h.1
      have hchildren : ∀ n ∈ t :: above, ¬n.IsContainer name := List.forall_mem_cons.2 ⟨ht, hfree⟩
      rw [hout, if_neg Bool.false_ne_true, Tree.placesAll_eq, List.filter_flatMap, List.filter_flatMap, Scan.delegates,
        List.flatMap_assoc]
      exact List.flatMap_congr fun c hc => ih c hc hchildren

end Pass

/-! ## Extraction of readable trees -/

section Extraction

variable {read : SourceReader} {config : Config} {a : Artifact} {tree : Tree}

/-- the selected containers of a readable tree -/
theorem containers_of_readable (name : String) (h : tree.Readable) :
    Place.containers name ⟨tree, []⟩ = .ok ((tree.places []).filter fun p => p.Outermost name) := by
  unfold Place.containers
  rw [Place.walk_eq]
  obtain ⟨found, hfound⟩ := Place.Readable.outermost (fun p hp => Place.Readable.of_mem h hp) name
  rw [hfound, Place.outermost_eq_ok hfound]

/-- **Readable trees.** A readable tree comes to an extraction. -/
theorem Tree.Readable.scan (h : tree.Readable) (config : Config) (a : Artifact) : Total (Scan.scan config a tree) := by
  have hcontainers := containers_of_readable config.container h
  refine Total.bind ⟨_, hcontainers⟩ fun found hfound => ?_
  have hplaces : ∀ p ∈ found, p.Readable := by
    intro p hp
    obtain rfl := Except.ok.inj (hfound.symm.trans hcontainers)
    exact .of_mem h (List.mem_of_mem_filter hp)
  cases found with
  | nil => exact ⟨_, dif_neg a.id_ne_empty⟩
  | cons first others =>
    have hfirst := hplaces first List.mem_cons_self
    have hothers : ∀ p ∈ others, p.Readable := fun p hp => hplaces p (List.mem_cons_of_mem _ hp)
    refine (Scan.syntaxDiagnostics_total a _).bind fun faults _ => ?_
    refine hfirst.namespaceName.bind fun chosen _ => ?_
    refine (Scan.conflictDiagnostics_total config a chosen hothers).bind fun conflicts _ => ?_
    refine (Scan.globalDiagnostics_total config a chosen hfirst).bind fun globals _ => ?_
    refine Total.bind (Total.mapM fun p hp => ?_) fun results _ => ?_
    · obtain ⟨q, hq, hp⟩ := List.mem_flatMap.1 hp
      have hp := List.mem_of_mem_tail (List.mem_of_mem_filter hp)
      rw [Place.walk_eq] at hp
      exact ((hplaces q hq).node.of_mem (Tree.node_mem_preorder hp)).analyze config.marking a.id_ne_empty
    · have hcontext : Total (Context.make (some chosen) a.id (results.filterMap Outcome.record?)) :=
        ⟨_, dif_neg a.id_ne_empty⟩
      refine hcontext.bind fun c hc => ?_
      obtain ⟨hartifact, -⟩ := (Scan.make_context_meets chosen a.id _).of_ok hc
      exact ⟨_, (dif_neg a.id_ne_empty).trans (dif_pos hartifact)⟩

/-- an extraction of a tree covers it: everything that counts is there, and is there once -/
structure Covers (config : Config) (a : Artifact) (tree : Tree) (e : Extraction) : Prop where
  /-- the places of the tree are its nodes in document order -/
  pass : (tree.places []).map Place.node = tree.preorder
  /-- there is no context exactly when there is no container in the tree -/
  skipped : e.context = none ↔ ∀ t ∈ tree.preorder, ¬t.IsContainer config.container
  /-- selected are the containers that no container is above -/
  selected : Place.containers config.container ⟨tree, []⟩ =
    .ok ((tree.places []).filter fun p => p.Outermost config.container)
  /-- analyzed are the delegates that some container is above, in one pass over the tree -/
  analyzed : ∀ found, Place.containers config.container ⟨tree, []⟩ = .ok found →
    Scan.delegates found = (tree.places []).filter fun p => p.IsDelegate config.container
  /-- and every one of them comes to its outcome, of which handlers and diagnostics are read off -/
  outcomes : ∀ c ∈ e.context, ∃ results,
    List.Forall₂ (fun p o => config.marking.analyze (some p.node) (some a.path) = .ok o)
      ((tree.places []).filter fun p => p.IsDelegate config.container) results ∧
    c.handlers = results.filterMap Outcome.record? ∧
    (e.diagnostics.filter fun d => d.OfDelegate) = results.filterMap Outcome.problem?

/-- diagnostics of outcomes are about delegates -/
theorem ofDelegate_of_outcomes {places : List Place} {results : List Outcome} (h : Scan.outcomes config a places = .ok results)
    {d : Diagnostic} (hd : d ∈ results.filterMap Outcome.problem?) : d.OfDelegate := by
  obtain ⟨o, ho, hproblem⟩ := List.mem_filterMap.1 hd
  have hproper := (Scan.outcomes_meets config a places).of_ok h o ho
  cases o with
  | problem x =>
    cases hproblem
    exact hproper
  | ignored | record => cases hproblem

/-- an extraction gives no context exactly when there is no container in the tree -/
theorem context_eq_none_iff {e : Extraction} (h : tree.Readable) (he : Scan.scan config a tree = .ok e) :
    e.context = none ↔ ∀ t ∈ tree.preorder, ¬t.IsContainer config.container := by
  have hselected := containers_of_readable config.container h
  have hfree : ∀ n ∈ ([] : List Tree), ¬n.IsContainer config.container := fun _ hn => nomatch hn
  rcases Scan.scan_cases he with ⟨hnone, hcontext, -⟩ | ⟨found, -, -, c, hfound, hsome, -, hcontext, -⟩
  · refine iff_of_true hcontext fun n hn hcontainer => ?_
    obtain ⟨p, hp, hout⟩ := exists_outermost hfree ⟨n, hn, hcontainer⟩
    have hempty := Except.ok.inj (hselected.symm.trans hnone)
    exact List.filter_eq_nil_iff.1 hempty p hp (decide_eq_true hout)
  · refine iff_of_false (by rw [hcontext]; exact Option.some_ne_none c) fun hno => ?_
    obtain rfl := Except.ok.inj (hselected.symm.trans hsome)
    obtain ⟨p, hp⟩ := List.exists_mem_of_ne_nil _ hfound
    obtain ⟨hplace, hout⟩ := List.mem_filter.1 hp
    exact hno p.node (Tree.node_mem_preorder hplace) (of_decide_eq_true hout).1

/-- the handlers and the diagnostics about delegates are the outcomes of the delegates below what is selected -/
theorem outcomes_of_scan {e : Extraction} {found : List Place} (he : Scan.scan config a tree = .ok e)
    (hfound : Place.containers config.container ⟨tree, []⟩ = .ok found) {c : Context} (hc : c ∈ e.context) :
    ∃ results, Scan.outcomes config a (Scan.delegates found) = .ok results ∧
      c.handlers = results.filterMap Outcome.record? ∧
      (e.diagnostics.filter fun d => d.OfDelegate) = results.filterMap Outcome.problem? := by
  rcases Scan.scan_cases he with ⟨-, hcontext, -⟩ |
    ⟨found', front, results, c', -, hsome, hresults, hcontext, hhandlers, hds, hfront⟩
  · rw [hcontext] at hc
    cases hc
  · rw [hcontext, Option.mem_some_iff] at hc
    subst hc
    obtain rfl := Except.ok.inj (hfound.symm.trans hsome)
    have hfront : (front.filter fun d => d.OfDelegate) = [] :=
      List.filter_eq_nil_iff.2 fun d hd => by simpa using hfront d hd
    have hproblems : ((results.filterMap Outcome.problem?).filter fun d => d.OfDelegate) =
        results.filterMap Outcome.problem? :=
      List.filter_eq_self.2 fun d hd => decide_eq_true (ofDelegate_of_outcomes hresults hd)
    refine ⟨results, hresults, hhandlers, ?_⟩
    rw [hds, List.filter_append, hfront, hproblems, List.nil_append]

end Extraction

/-! ### A container in a container -/

namespace Coverage.Sample

/-- the name field of a declaration -/
def called (name : String) : Tree :=
  { kind := "identifier", text := some (Text.Utf8.encode name), field := some "name" }

def classOf (name : String) (members : List Tree) : Tree :=
  { kind := "class_declaration", children := called name :: members }

/-- a delegate declaration that carries an attribute -/
def delegate (marker name : String) : Tree :=
  { kind := "delegate_declaration",
    children := [{ kind := "attribute_list", children := [{ kind := "attribute", children := [called marker] }] },
      called name, { kind := "parameter_list", field := some "parameters" }] }

/-- a container with delegates before and after another class, which has a container of its own -/
def tree : Tree :=
  { kind := "compilation_unit",
    children := [classOf "Behavior" [delegate "Signal" "ReadyEventHandler",
      classOf "Other" [classOf "Behavior" [delegate "Signal" "DiedEventHandler"], delegate "Signal" "Hit"],
      delegate "Obsolete" "Jumped"]] }

def file : Artifact := ⟨⟨.here, ["Nested.cs"], by decide⟩, "", by decide⟩

end Coverage.Sample

end SignalWiring
