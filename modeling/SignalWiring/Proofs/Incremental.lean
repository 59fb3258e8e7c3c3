/-
Warm runs and cold runs.

A run is compared with the run of a fresh pipeline on the same artifacts. Cache and registry of the former come from any
history; what an artifact yields is nevertheless its own extraction, apart from the file of its locations
(`Yields.context_bare`). When every registered artifact is extracted again, the registry holds the live contexts alone,
in some order (`run_settles`), and numbered by name the order does not matter (`emit_settled`).

- `run_agrees_with_rebuild`: both runs are stopped by an event that occurs twice, or both return the same fragments and
  the same table, and neither speaks of stale entries.
-/
import SignalWiring.Proofs.Returns

namespace SignalWiring

theorem Context.bare_moved (file : Path) (c : Context) : (c.moved file).bare = c.bare := by
  refine Context.ext rfl rfl ?_
  simp only [bare, moved, List.map_map]
  rfl

namespace Pipeline

/-! ## Artifacts by themselves -/

/-- the context that an artifact has by itself -/
def contextOf (read : SourceReader) (config : Config) (a : Artifact) : Option Context :=
  (extract read config a).toOption.bind Extraction.context

/-- the contexts that artifacts have by themselves, without the places of their handlers -/
def bareContexts (read : SourceReader) (config : Config) (artifacts : List Artifact) : List Context :=
  artifacts.filterMap fun a => (contextOf read config a).map Context.bare

theorem contextOf_eq_some {read : SourceReader} {config : Config} {a : Artifact} {c : Context} :
    contextOf read config a = some c ↔ ∃ e, extract read config a = .ok e ∧ e.context = some c := by
  rw [contextOf]
  cases extract read config a with
  | ok e => simp [Except.toOption]
  | error f => simp [Except.toOption]

section Rebuild

variable {parse : String → Option Tree} {config : Config} {used artifacts : List Artifact} {s : Session}

/-- What a run has of an artifact is its own extraction, but for the places of its handlers. -/
theorem Yields.context_bare {a : Artifact} {e : Extraction} (hfree : CollisionFree used) (ha : a ∈ used)
    (h : Yields (.ofText parse) config (· ∈ used) a e) :
    e.context.map Context.bare = (contextOf (.ofText parse) config a).map Context.bare := by
  cases h with
  | scanned b hb hid hprint he =>
    have htext := (hfree.fingerprint_eq_iff hb ha).1 hprint
    have hself : contextOf (.ofText parse) config a = e.context.map (Context.moved a.path) := by
      rw [contextOf, extract_moved hid htext he]
      rfl
    rw [hself, Option.map_map]
    exact congrArg (fun f => e.context.map f) (funext fun c => (Context.bare_moved a.path c).symm)
  | failed f hf hbarren =>
    have hself : contextOf (.ofText parse) config a = none := by
      rw [contextOf, hf]
      rfl
    rw [hself, hbarren.context]

theorem live_bare {es : List Extraction} (hfree : CollisionFree used) (hused : ∀ a ∈ artifacts, a ∈ used)
    (h : List.Forall₂ (Yields (.ofText parse) config (· ∈ used)) artifacts es) :
    (es.filterMap Extraction.context).map Context.bare = bareContexts (.ofText parse) config artifacts := by
  induction h with
  | nil => rfl
  | @cons a e rest es hyields _ ih =>
    have hhead := hyields.context_bare hfree (hused a List.mem_cons_self)
    have htail := ih fun x hx => hused x (List.mem_cons_of_mem _ hx)
    rw [bareContexts] at htail ⊢
    rw [List.filterMap_cons, List.filterMap_cons, ← hhead]
    cases e.context with
    | none => exact htail
    | some c =>
      rw [Option.map_some, List.map_cons, htail]

/-! ## Registries that are stored again as a whole -/

/-- every registered artifact is among those with a context of their own -/
def Covered (parse : String → Option Tree) (config : Config) (s : Session) (artifacts : List Artifact) : Prop :=
  ∀ id ∈ s.registry.artifacts, ∃ a ∈ artifacts, a.id = id ∧ ∃ e c, extract (.ofText parse) config a = .ok e ∧
    e.context = some c

theorem covered_fresh (parse : String → Option Tree) (config : Config) (artifacts : List Artifact) :
    Covered parse config .fresh artifacts := fun _ h => nomatch h

theorem mem_live_of_covered {live : List Context} (hcover : Covered parse config s artifacts)
    (hlive : live.map Context.bare = bareContexts (.ofText parse) config artifacts) {c : Context}
    (hc : c ∈ s.registry.snapshot) : c.artifact ∈ live.map Context.artifact := by
  have hreg : c.artifact ∈ s.registry.artifacts := by
    rw [Registry.artifacts_eq]
    exact List.mem_map_of_mem hc
  obtain ⟨a, ha, hid, e, d, he, hd⟩ := hcover _ hreg
  have hbare : d.bare ∈ live.map Context.bare := by
    rw [hlive]
    exact List.mem_filterMap.2 ⟨a, ha, by rw [contextOf_eq_some.2 ⟨e, he, hd⟩]; rfl⟩
  obtain ⟨x, hx, hxd⟩ := List.mem_map.1 hbare
  have hartifact : x.bare.artifact = d.bare.artifact := congrArg Context.artifact hxd
  have hown : d.artifact = a.id := (e.context_artifact d hd).trans (extract_fits he).artifact
  exact List.mem_map.2 ⟨x, hx, hartifact.trans (hown.trans hid)⟩

/-- **Settling.** A run that covers the registry numbers and renders the contexts that its artifacts have by themselves,
whatever the session comes from. -/
theorem run_settles (hfree : CollisionFree used) (hused : ∀ a ∈ artifacts, a ∈ used)
    (hids : (artifacts.map Artifact.id).Nodup) (h : From (.ofText parse) config (· ∈ used) s)
    (hcover : Covered parse config s artifacts) :
    ∃ (registry : Registry) (live : List Context) (ds : List Diagnostic),
      ((reading (.ofText parse) config).run s artifacts).outcome =
        (reading (.ofText parse) config).emit registry live ds ∧
      registry.snapshot.Perm live ∧ live.map Context.bare = bareContexts (.ofText parse) config artifacts ∧
      (∀ c ∈ live, Path.IsPart c.artifact) ∧ ∀ d ∈ ds, d.OfSource := by
  obtain ⟨es, ds, hcourse⟩ := run_course h hused hids
  have hnodup := nodup_live hcourse.yields hids
  have hbare := live_bare hfree hused hcourse.yields
  have hperm := Registry.snapshot_perm_live (r := s.registry) hnodup fun c hc => mem_live_of_covered hcover hbare hc
  refine ⟨_, _, _, hcourse.outcome, hperm, hbare, isPart_of_live hcourse.yields, fun d hd => ?_⟩
  have hstale : ds = [] := by
    rw [← List.length_eq_zero_iff, hcourse.stale, Registry.stale_eq_nil]
    · rfl
    · exact fun c hc => List.mem_map_of_mem (hperm.mem_iff.1 hc)
  rw [hstale, List.append_nil] at hd
  obtain ⟨e, he, hde⟩ := List.mem_flatMap.1 hd
  exact ofSource_of_yields hcourse.yields he d hde

/-! ## Numbering and rendering -/

/-- the run is stopped by an event that occurs twice -/
def RepeatsEvent (x : Except Fault Generation) : Prop :=
  ∃ event first second, x = .error (.duplicateEvent event first second)

/-- **Order-independence.** Numbered by name, contexts in whatever order have the table and the fragments of the
contexts that the artifacts have by themselves, or an event occurs twice. -/
theorem emit_settled {registry : Registry} {live : List Context} (ds : List Diagnostic)
    (hsorted : config.order = .sorted) (hperm : registry.snapshot.Perm live)
    (hlive : live.map Context.bare = bareContexts (.ofText parse) config artifacts)
    (hpart : ∀ c ∈ live, Path.IsPart c.artifact) :
    (∃ t fragments,
      Assignment.assign (bareContexts (.ofText parse) config artifacts) .sorted BuiltinEvent.all = .ok t ∧
      (reading (.ofText parse) config).fragmentsOf (bareContexts (.ofText parse) config artifacts) t = .ok fragments ∧
      (reading (.ofText parse) config).emit registry live ds = .ok ⟨fragments, ds, t⟩) ∨
    (∀ t, Assignment.assign (bareContexts (.ofText parse) config artifacts) .sorted BuiltinEvent.all ≠ .ok t) ∧
      RepeatsEvent ((reading (.ofText parse) config).emit registry live ds) := by
  have horder : (reading (.ofText parse) config).config.order = .sorted := hsorted
  have hdeclared : (Assignment.declarations registry.snapshot).Perm
      (Assignment.declarations (bareContexts (.ofText parse) config artifacts)) := by
    rw [← hlive, Assignment.declarations_bare]
    exact hperm.flatMap_right _
  cases ht : Assignment.assign registry.snapshot .sorted BuiltinEvent.all with
  | ok t =>
    obtain ⟨fragments, hfragments, hemit⟩ := exists_emit (p := reading (.ofText parse) config) ds hpart
      (fun c hc => hperm.mem_iff.2 hc) (by rw [horder]; exact ht)
    refine Or.inl ⟨t, fragments, Assignment.assign_sorted_congr hdeclared ht, ?_, hemit⟩
    rw [← hlive, fragmentsOf_bare]
    exact hfragments
  | error f =>
    obtain ⟨event, first, second, rfl, -⟩ := Assignment.assign_clash ht
    refine Or.inr ⟨fun t hbare => ?_, event, first, second, emit_of_fault (by rw [horder]; exact ht)⟩
    rw [Assignment.assign_sorted_congr hdeclared.symm hbare] at ht
    cases ht

end Rebuild

/-! ## Rebuilding -/

/-- **Incremental generation.** With events numbered by name, a pipeline of any history and a fresh one agree on
artifacts that cover what is registered: both are stopped by an event that occurs twice, or both return, with the same
fragments and the same table, and neither reports a stale entry. -/
theorem run_agrees_with_rebuild (parse : String → Option Tree) (config : Config) (hsorted : config.order = .sorted)
    (calls : List Call) (artifacts : List Artifact) (hids : (artifacts.map Artifact.id).Nodup)
    (hcover : Covered parse config (history (reading (.ofText parse) config) calls) artifacts)
    (hfree : CollisionFree (artifacts ++ calls.flatMap Call.artifacts)) :
    (RepeatsEvent ((reading (.ofText parse) config).runAfter calls artifacts).outcome ↔
      RepeatsEvent ((reading (.ofText parse) config).runAfter [] artifacts).outcome) ∧
    (¬RepeatsEvent ((reading (.ofText parse) config).runAfter [] artifacts).outcome → ∃ warm cold,
      ((reading (.ofText parse) config).runAfter calls artifacts).outcome = .ok warm ∧
      ((reading (.ofText parse) config).runAfter [] artifacts).outcome = .ok cold ∧
      warm.fragments = cold.fragments ∧ warm.table = cold.table ∧
      (∀ d ∈ warm.diagnostics, d.kind ≠ .staleRegistryEntry) ∧
      ∀ d ∈ cold.diagnostics, d.kind ≠ .staleRegistryEntry) := by
  have hused : ∀ a ∈ artifacts, a ∈ artifacts ++ calls.flatMap Call.artifacts := fun a ha =>
    List.mem_append_left _ ha
  have hhistory : From (.ofText parse) config (· ∈ artifacts ++ calls.flatMap Call.artifacts)
      (history (reading (.ofText parse) config) calls) :=
    from_history calls fun call hcall a ha => List.mem_append_right _ (List.mem_flatMap.2 ⟨call, hcall, ha⟩)
  obtain ⟨registry, live, ds, hwarm, hperm, hlive, hpart, hds⟩ := run_settles hfree hused hids hhistory hcover
  obtain ⟨registry', live', ds', hcold, hperm', hlive', hpart', hds'⟩ :=
    run_settles hfree hused hids from_fresh (covered_fresh parse config artifacts)
  have hfresh : ((reading (.ofText parse) config).runAfter [] artifacts).outcome =
      (reading (.ofText parse) config).emit registry' live' ds' := hcold
  rw [runAfter, hwarm, hfresh]
  rcases emit_settled ds hsorted hperm hlive hpart with ⟨t, fragments, ht, hf, hemit⟩ | ⟨hnone, hrepeats⟩
  · rcases emit_settled ds' hsorted hperm' hlive' hpart' with ⟨t', fragments', ht', hf', hemit'⟩ | ⟨hnone', -⟩
    · have htable : t = t' := Except.ok.inj (ht.symm.trans ht')
      subst htable
      have hfragments : fragments = fragments' := Except.ok.inj (hf.symm.trans hf')
      rw [hemit, hemit']
      exact ⟨⟨fun ⟨_, _, _, h⟩ => (nomatch h), fun ⟨_, _, _, h⟩ => (nomatch h)⟩,
        fun _ => ⟨_, _, rfl, rfl, hfragments, rfl, hds, hds'⟩⟩
    · exact absurd ht (hnone' t)
  · rcases emit_settled ds' hsorted hperm' hlive' hpart' with ⟨t', -, ht', -, -⟩ | ⟨-, hrepeats'⟩
    · exact absurd ht' (hnone t')
    · exact ⟨⟨fun _ => hrepeats', fun _ => hrepeats⟩, fun hno => absurd hrepeats' hno⟩

/-! ### A file that is moved and edited -/

namespace Sample

/-- the file somewhere else, without its handler -/
def edited : Artifact := ⟨⟨.here, ["src", "Foo.cs"], by decide⟩, "partial class Behavior\n\x7b\n\x7d\n", by decide⟩

/-- the file as it was is all that was run -/
def earlier : List Call := [.run [Cache.Sample.before]]

end Sample

theorem run_agrees_with_rebuild_sample :
    Covered Cache.Sample.outlined .standard (history Sample.outlining Sample.earlier) [Sample.edited] ∧
    CollisionFree ([Sample.edited] ++ Sample.earlier.flatMap Call.artifacts) ∧
    (RepeatsEvent (Sample.outlining.runAfter Sample.earlier [Sample.edited]).outcome ↔
      RepeatsEvent (Sample.outlining.runAfter [] [Sample.edited]).outcome) := by
  have hhistory : history Sample.outlining Sample.earlier = Sample.outlining.settled .fresh [Cache.Sample.before] :=
    run_session (U := fun _ => True) from_fresh (fun _ _ => trivial) (by decide)
  have hregistered : (history Sample.outlining Sample.earlier).registry.artifacts = ["Foo.cs"] := by
    rw [hhistory]
    decide +kernel
  have hcontext : (contextOf (.ofText Cache.Sample.outlined) .standard Sample.edited).isSome = true := by
    decide +kernel
  have hcover : Covered Cache.Sample.outlined .standard (history Sample.outlining Sample.earlier) [Sample.edited] := by
    intro id hid
    rw [hregistered, List.mem_singleton] at hid
    obtain ⟨c, hc⟩ := Option.isSome_iff_exists.1 hcontext
    obtain ⟨e, he, hec⟩ := contextOf_eq_some.1 hc
    exact ⟨Sample.edited, List.mem_singleton_self _, hid.symm, e, c, he, hec⟩
  have hprint : Sample.edited.fingerprint ≠ Cache.Sample.before.fingerprint := by
    decide +kernel
  have hfree : CollisionFree [Sample.edited, Cache.Sample.before] := .of_two hprint (by decide)
  have hagrees := run_agrees_with_rebuild Cache.Sample.outlined .standard rfl Sample.earlier [Sample.edited] (by decide)
    hcover hfree
  exact ⟨hcover, hfree, hagrees.1⟩

end Pipeline

end SignalWiring
