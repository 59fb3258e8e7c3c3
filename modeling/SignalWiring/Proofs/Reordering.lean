/-
Artifacts in another order.

Two runs from one session on the same artifacts, in two orders. What is extracted of an artifact does not depend on the
others, so the registries and the live contexts are the same up to order (`perm_of_forall₂`,
`Registry.snapshot_storeAll_perm`). Whether events clash does not depend on the order (`Assignment.not_clash_of_perm`).
Numbered by name, neither does the table; numbered as discovered, the names of the table and its identifiers are the
same, though not matched alike, and no fragment but that of the root can tell (`emit_reordered`).

- `run_reordered`: both runs are stopped by an event that occurs twice, or both return, and differ as `Reordered` says.
-/
import SignalWiring.Proofs.Fragments
import SignalWiring.Proofs.Incremental
import SignalWiring.Proofs.Transition
import SignalWiring.Proofs.Wiring

namespace SignalWiring

open Assignment

/-- A snapshot has the same contexts when the same contexts are stored in another order. -/
theorem Registry.snapshot_storeAll_perm {r : Registry} {live others : List Context}
    (h : (live.map Context.artifact).Nodup) (hperm : live.Perm others) :
    (r.storeAll live).snapshot.Perm (r.storeAll others).snapshot := by
  have hother : (others.map Context.artifact).Nodup := (hperm.map _).nodup_iff.1 h
  refine (List.perm_ext_iff_of_nodup (List.Nodup.of_map _ (nodup_artifacts _))
    (List.Nodup.of_map _ (nodup_artifacts _))).2 fun c => ?_
  rw [mem_snapshot_storeAll h, mem_snapshot_storeAll hother, hperm.mem_iff, (hperm.map _).mem_iff]

/-- The same artifacts are stale. -/
theorem Registry.stale_storeAll_perm {r : Registry} {live others : List Context}
    (h : (live.map Context.artifact).Nodup) (hperm : live.Perm others) :
    (r.storeAll live).stale (live.map Context.artifact) = (r.storeAll others).stale (others.map Context.artifact) := by
  rw [stale_storeAll h, stale_storeAll ((hperm.map _).nodup_iff.1 h)]
  exact List.filter_congr fun id _ => decide_eq_decide.2 (not_congr (hperm.map Context.artifact).mem_iff)

/-- Events that are all different and new do not clash when they are declared in another order. -/
theorem Assignment.not_clash_of_perm {snapshot others : List Context} {event first second : String}
    (hevents : (eventNames others).Perm (eventNames snapshot)) (hnodup : (eventNames snapshot).Nodup)
    (hnew : ∀ n ∈ eventNames snapshot, n ∉ BuiltinEvent.all.map BuiltinEvent.key) :
    ¬Clash others event first second := by
  intro hclash
  rcases hclash.repeated_or_builtin with htwice | ⟨n, hn, hbuiltin⟩
  · exact htwice (hevents.nodup_iff.2 hnodup)
  · exact hnew n (hevents.mem_iff.1 hn) hbuiltin

namespace Pipeline

/-- what is the same in two generations that are made of the same artifacts in two orders -/
structure Reordered (config : Config) (g h : Generation) : Prop where
  /-- the built-in block of the table -/
  builtin : g.table.builtinItems = h.table.builtinItems
  /-- the discovered names, up to their order -/
  names : g.table.discoveredNames.Perm h.table.discoveredNames
  /-- the identifiers in use -/
  ids : g.table.ids.keys = h.table.ids.keys
  /-- every fragment but that of the root -/
  others : (g.fragments.filter fun f => !f.isRoot).Perm (h.fragments.filter fun f => !f.isRoot)
  /-- the diagnostics, up to their order -/
  diagnostics : g.diagnostics.Perm h.diagnostics
  /-- and when events are numbered by name, the whole table: names, identifiers and origins -/
  table : config.order = .sorted → g.table = h.table
  /-- and every fragment -/
  fragments : config.order = .sorted → g.fragments.Perm h.fragments

section Emission

variable {p : Pipeline} {registry registry' : Registry} {live live' : List Context} {ds ds' : List Diagnostic}

/-- Contexts that are emitted in another order, from a registry in another order, are stopped alike or give the same
generation but for what depends on the order. -/
theorem emit_reordered (hregistry : registry.snapshot.Perm registry'.snapshot) (hlive : live.Perm live')
    (hds : ds.Perm ds') (hpart : ∀ c ∈ live, Path.IsPart c.artifact) (hsub : ∀ c ∈ live, c ∈ registry.snapshot) :
    (RepeatsEvent (p.emit registry live ds) ∧ RepeatsEvent (p.emit registry' live' ds')) ∨
    ∃ g h, p.emit registry live ds = .ok g ∧ p.emit registry' live' ds' = .ok h ∧ Reordered p.config g h := by
  have hevents : (eventNames registry.snapshot).Perm (eventNames registry'.snapshot) := hregistry.flatMap_right _
  have hpart' : ∀ c ∈ live', Path.IsPart c.artifact := fun c hc => hpart c (hlive.mem_iff.2 hc)
  have hsub' : ∀ c ∈ live', c ∈ registry'.snapshot := fun c hc =>
    hregistry.mem_iff.1 (hsub c (hlive.mem_iff.2 hc))
  rcases emit_cases (p := p) ds hpart hsub with ⟨hnodup, hnew, g, hg⟩ | ⟨event, first, second, hclash, hstop⟩
  · rcases emit_cases (p := p) ds' hpart' hsub' with ⟨-, -, h, hh⟩ | ⟨event, first, second, hclash, -⟩
    · obtain ⟨htable, hfragments, hgds⟩ := emit_eq_ok hg
      obtain ⟨htable', hfragments', hhds⟩ := emit_eq_ok hh
      have hsorted : p.config.order = .sorted → g.table = h.table := by
        intro horder
        rw [horder] at htable htable'
        have hsame := assign_sorted_congr (hregistry.flatMap_right _) htable
        exact Except.ok.inj (hsame.symm.trans htable')
      refine Or.inr ⟨g, h, hg, hh, ?_, ?_, ?_, fragmentsOf_perm_other hlive hfragments hfragments', ?_, hsorted, ?_⟩
      · rw [builtinItems_eq htable, builtinItems_eq htable']
      · exact (discoveredNames_perm htable).trans (hevents.trans (discoveredNames_perm htable').symm)
      · exact ids_keys_congr hevents.length_eq htable htable'
      · rw [hgds, hhds]
        exact hds
      · exact fun horder => fragmentsOf_perm hlive hfragments hfragments' (congrArg IdTable.items (hsorted horder))
    · exact absurd hclash (not_clash_of_perm hevents.symm hnodup hnew)
  · rcases emit_cases (p := p) ds' hpart' hsub' with ⟨hnodup, hnew, -⟩ | ⟨event', first', second', -, hstop'⟩
    · exact absurd hclash (not_clash_of_perm hevents hnodup hnew)
    · exact Or.inl ⟨⟨event, first, second, hstop⟩, event', first', second', hstop'⟩

end Emission

/-- **Scan order.** After any history, in particular on fresh pipelines, take runs on the same artifacts of different
names in two orders. Either both are stopped by an event that occurs twice, or both return. Then they have the same
diagnostics up to order, the same built-in block, the same discovered names and identifiers and the same fragments of
all artifacts but the root. With events numbered by name they have the same table, and the fragment of the root is the
same too. -/
theorem run_reordered (read : SourceReader) (config : Config) (calls : List Call) (artifacts others : List Artifact)
    (hids : (artifacts.map Artifact.id).Nodup) (hperm : artifacts.Perm others) :
    (RepeatsEvent ((reading read config).runAfter calls artifacts).outcome ∧
      RepeatsEvent ((reading read config).runAfter calls others).outcome) ∨
    ∃ g h, ((reading read config).runAfter calls artifacts).outcome = .ok g ∧
      ((reading read config).runAfter calls others).outcome = .ok h ∧ Reordered config g h := by
  rw [runAfter, runAfter]
  have hfrom : From read config (fun _ => True) ((reading read config).history calls) :=
    from_history calls fun _ _ _ _ => trivial
  obtain ⟨es, hes, hyields⟩ := exists_extracts hfrom fun a (_ : a ∈ artifacts) => trivial
  obtain ⟨es', hes', -⟩ := exists_extracts hfrom fun a (_ : a ∈ others) => trivial
  -- what is extracted of an artifact does not depend on its place
  have hextracted : es.Perm es' := perm_of_forall₂ hperm hes hes' fun a _ e e' he he' =>
    Except.ok.inj (he.symm.trans he')
  have hlive := hextracted.filterMap Extraction.context
  have hnodup := nodup_live hyields hids
  obtain ⟨-, notices, hnotices, houtcome⟩ := run_of_extracts hids hes
  obtain ⟨-, notices', hnotices', houtcome'⟩ := run_of_extracts ((hperm.map _).nodup_iff.1 hids) hes'
  rw [Registry.stale_storeAll_perm hnodup hlive] at hnotices
  obtain rfl : notices = notices' := Except.ok.inj (hnotices.symm.trans hnotices')
  rw [houtcome, houtcome']
  exact emit_reordered (Registry.snapshot_storeAll_perm hnodup hlive) hlive
    ((hextracted.flatMap_right _).append_right notices) (isPart_of_live hyields) (mem_registry_of_live hnodup)

/-! ### The root and another artifact, numbered as discovered -/

namespace Sample

/-- events are numbered in the order of their discovery -/
def discovering : Config := { Config.standard with order := .discovery }

/-- the pipeline that reads outlines and numbers events so -/
def numbering : Pipeline := reading (.ofText Cache.Sample.outlined) discovering

end Sample

theorem run_reordered_sample :
    ([SignalWiring.Sample.root, Cache.Sample.before].map Artifact.id).Nodup ∧
    [SignalWiring.Sample.root, Cache.Sample.before].Perm [Cache.Sample.before, SignalWiring.Sample.root] ∧
    ∃ g h, (Sample.numbering.runAfter [] [SignalWiring.Sample.root, Cache.Sample.before]).outcome = .ok g ∧
      (Sample.numbering.runAfter [] [Cache.Sample.before, SignalWiring.Sample.root]).outcome = .ok h ∧
      Reordered Sample.discovering g h := by
  have hids : ([SignalWiring.Sample.root, Cache.Sample.before].map Artifact.id).Nodup := by decide
  have hperm : [SignalWiring.Sample.root, Cache.Sample.before].Perm [Cache.Sample.before, SignalWiring.Sample.root] :=
    List.Perm.swap _ _ _
  obtain ⟨g, hg⟩ : ∃ g, (Sample.numbering.run .fresh
      [SignalWiring.Sample.root, Cache.Sample.before]).outcome = .ok g :=
    exists_run_of_events (U := fun _ => True) ["Died", "Jumped"] from_fresh (fun _ _ => trivial) hids
      (by decide +kernel) (by decide)
  refine ⟨hids, hperm, ?_⟩
  rcases run_reordered (.ofText Cache.Sample.outlined) Sample.discovering [] _ _ hids hperm with
    ⟨⟨event, first, second, hstop⟩, -⟩ | hreturned
  · have hstop' : (Sample.numbering.run .fresh [SignalWiring.Sample.root, Cache.Sample.before]).outcome =
        .error (.duplicateEvent event first second) := hstop
    rw [hg] at hstop'
    cases hstop'
  · exact hreturned

end Pipeline

end SignalWiring
