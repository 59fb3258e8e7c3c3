/-
Emission is local.

The fragments of a run are rendered from the contexts that its artifacts have by themselves, whatever cache and registry
come from (`run_fragments`). So the fragment of an artifact depends on its name and its text, on the configuration and,
for the root alone, on the items of the table. Nothing else gets in: no other artifact, no path, no earlier run, and
neither the order of identifiers nor the number of workers.

- `fragments_noninterference`: the same artifact in any two runs of pipelines that agree on everything else.
-/
import SignalWiring.Proofs.Fragments
import SignalWiring.Proofs.Incremental
import SignalWiring.Proofs.Wiring

namespace SignalWiring

def Generation.fragmentsFor (g : Generation) (artifact : String) : List Fragment :=
  g.fragments.filter fun f => f.artifact = artifact

/-- the configuration with another order of identifiers and another number of workers -/
def Config.scheduled (c : Config) (order : IdOrder) (workers : Setting) : Config :=
  { c with order := order, workers := workers }

/-! ## What scanning reads of the configuration -/

section Scheduled

variable (config : Config) (order : IdOrder) (workers : Setting) (a : Artifact)

theorem Scan.conflictDiagnostics_scheduled (chosen : String) (places : List Place) :
    conflictDiagnostics (config.scheduled order workers) a chosen places =
      conflictDiagnostics config a chosen places := by
  induction places with
  | nil => rfl
  | cons p rest ih =>
    rw [conflictDiagnostics, conflictDiagnostics, ih]
    rfl

/-- Scanning reads neither the order of identifiers nor the number of workers. -/
theorem extract_scheduled (read : SourceReader) :
    extract read (config.scheduled order workers) a = extract read config a := by
  have hscan : Scan.scan (config.scheduled order workers) a = Scan.scan config a := by
    funext tree
    rw [Scan.scan, Scan.scan]
    simp only [Scan.conflictDiagnostics_scheduled]
    rfl
  rw [extract, extract, hscan]

end Scheduled

namespace Pipeline

section Artifacts

variable {parse : String → Option Tree} {read : SourceReader} {config : Config} {a b : Artifact} {c : Context}

theorem artifact_of_contextOf (h : contextOf read config a = some c) : c.artifact = a.id := by
  obtain ⟨e, he, hc⟩ := contextOf_eq_some.1 h
  exact (e.context_artifact c hc).trans (extract_fits he).artifact

theorem artifact_of_bare (h : (contextOf read config a).map Context.bare = some c) : c.artifact = a.id := by
  obtain ⟨d, hd, rfl⟩ := Option.map_eq_some_iff.1 h
  have hown : d.artifact = a.id := artifact_of_contextOf hd
  exact hown

/-- Artifacts of one name and one text have the same context, but for the places of its handlers. -/
theorem bare_contextOf_congr (hid : a.id = b.id) (htext : a.content = b.content) :
    (contextOf (.ofText parse) config a).map Context.bare = (contextOf (.ofText parse) config b).map Context.bare := by
  cases ha : extract (.ofText parse) config a with
  | ok e =>
    have hb := extract_moved hid htext ha
    have hmoved : (e.moved b.path).context = e.context.map (Context.moved b.path) := rfl
    rw [contextOf, contextOf, ha, hb]
    change e.context.map Context.bare = (e.moved b.path).context.map Context.bare
    rw [hmoved, Option.map_map]
    exact congrArg (fun f => e.context.map f) (funext fun c => (Context.bare_moved b.path c).symm)
  | error f =>
    cases hb : extract (.ofText parse) config b with
    | ok e =>
      -- an extraction of `b` could be moved to `a`
      rw [extract_moved hid.symm htext.symm hb] at ha
      cases ha
    | error f' =>
      rw [contextOf, contextOf, ha, hb]
      rfl

theorem bareContexts_cons {artifacts : List Artifact} :
    bareContexts read config (a :: artifacts) =
      ((contextOf read config a).map Context.bare).toList ++ bareContexts read config artifacts := by
  rw [bareContexts, List.filterMap_eq_flatMap_toList, List.flatMap_cons, ← List.filterMap_eq_flatMap_toList]
  rfl

/-- what artifacts of different names have of one artifact is its own context -/
theorem filter_bareContexts {artifacts : List Artifact} (hids : (artifacts.map Artifact.id).Nodup) (ha : a ∈ artifacts) :
    (bareContexts read config artifacts).filter (fun c => c.artifact = a.id) =
      ((contextOf read config a).map Context.bare).toList := by
  induction artifacts with
  | nil => cases ha
  | cons b rest ih =>
    obtain ⟨hnew, hrest⟩ := List.nodup_cons.1 hids
    rw [bareContexts_cons, List.filter_append]
    rcases List.mem_cons.1 ha with rfl | ha
    · -- what comes after it has other names
      have hothers : (bareContexts read config rest).filter (fun c => c.artifact = a.id) = [] := by
        refine List.filter_eq_nil_iff.2 fun c hc hartifact => hnew ?_
        obtain ⟨b, hb, hcb⟩ := List.mem_filterMap.1 hc
        rw [← of_decide_eq_true hartifact, artifact_of_bare hcb]
        exact List.mem_map_of_mem hb
      rw [hothers, List.append_nil]
      exact List.filter_eq_self.2 fun c hc => decide_eq_true (artifact_of_bare (Option.mem_toList.1 hc))
    · have hother : ((contextOf read config b).map Context.bare).toList.filter (fun c => c.artifact = a.id) = [] := by
        refine List.filter_eq_nil_iff.2 fun c hc hartifact => hnew ?_
        rw [← artifact_of_bare (Option.mem_toList.1 hc), of_decide_eq_true hartifact]
        exact List.mem_map_of_mem ha
      rw [hother, List.nil_append]
      exact ih hrest ha

end Artifacts

section Runs

variable {parse : String → Option Tree} {config : Config} {used artifacts : List Artifact} {s : Session}
  {g : Generation}

/-- **Fragments of a run.** They are rendered from the contexts that the artifacts have by themselves. -/
theorem run_fragments (hfree : CollisionFree used) (hused : ∀ a ∈ artifacts, a ∈ used)
    (h : From (.ofText parse) config (· ∈ used) s)
    (hg : ((reading (.ofText parse) config).run s artifacts).outcome = .ok g) :
    (reading (.ofText parse) config).fragmentsOf (bareContexts (.ofText parse) config artifacts) g.table =
      .ok g.fragments := by
  obtain ⟨es, ds, hcourse⟩ := run_course h hused (nodup_of_run_ok hg)
  rw [hcourse.outcome] at hg
  rw [← live_bare hfree hused hcourse.yields, fragmentsOf_bare]
  exact (emit_eq_ok hg).2.1

/-- the fragments of an artifact are rendered from its own context -/
theorem fragmentsFor_of_run {a : Artifact} (hfree : CollisionFree used) (hused : ∀ a ∈ artifacts, a ∈ used)
    (h : From (.ofText parse) config (· ∈ used) s)
    (hg : ((reading (.ofText parse) config).run s artifacts).outcome = .ok g) (ha : a ∈ artifacts) :
    List.Forall₂ (fun c f => (reading (.ofText parse) config).renderer.renderFragment c g.table = .ok f)
      ((contextOf (.ofText parse) config a).map Context.bare).toList (g.fragmentsFor a.id) := by
  rw [← filter_bareContexts (nodup_of_run_ok hg) ha]
  refine forall₂_filter (fun c f hf => ?_) (run_fragments hfree hused h hg)
  rw [(Emission.Renderer.renderFragment_eq_ok hf).1]

/-- whatever the pipeline was asked before -/
theorem fragmentsFor_of_runAfter {calls : List Call} {a : Artifact}
    (hfree : CollisionFree (artifacts ++ calls.flatMap Call.artifacts))
    (hg : ((reading (.ofText parse) config).runAfter calls artifacts).outcome = .ok g) (ha : a ∈ artifacts) :
    List.Forall₂ (fun c f => (reading (.ofText parse) config).renderer.renderFragment c g.table = .ok f)
      ((contextOf (.ofText parse) config a).map Context.bare).toList (g.fragmentsFor a.id) := by
  have hfrom : From (.ofText parse) config (· ∈ artifacts ++ calls.flatMap Call.artifacts)
      (history (reading (.ofText parse) config) calls) :=
    from_history calls fun call hcall x hx => List.mem_append_right _ (List.mem_flatMap.2 ⟨call, hcall, hx⟩)
  exact fragmentsFor_of_run hfree (fun x hx => List.mem_append_left _ hx) hfrom hg ha

end Runs

/-! ## Two runs -/

/-- **Noninterference.** Take two runs that return, after any histories, of pipelines whose configurations differ at most
in the order of identifiers and in the number of workers. An artifact of one name and one text in both has the same
fragments in both, namely one if it has a context; that of the root is the same as long as the items of the tables are. -/
theorem fragments_noninterference (parse : String → Option Tree) (config : Config) (order : IdOrder) (workers : Setting)
    (calls calls' : List Call) (artifacts artifacts' : List Artifact) (a a' : Artifact) (g g' : Generation)
    (hfree : CollisionFree (artifacts ++ calls.flatMap Call.artifacts))
    (hfree' : CollisionFree (artifacts' ++ calls'.flatMap Call.artifacts))
    (ha : a ∈ artifacts) (ha' : a' ∈ artifacts') (hid : a.id = a'.id) (htext : a.content = a'.content)
    (hg : ((reading (.ofText parse) config).runAfter calls artifacts).outcome = .ok g)
    (hg' : ((reading (.ofText parse) (config.scheduled order workers)).runAfter calls'
      artifacts').outcome = .ok g') :
    (config.isRoot a.id = false ∨ g.table.items = g'.table.items → g.fragmentsFor a.id = g'.fragmentsFor a.id) ∧
    (g.fragmentsFor a.id).length = (contextOf (.ofText parse) config a).toList.length ∧
    (g'.fragmentsFor a.id).length = (contextOf (.ofText parse) config a).toList.length := by
  have hmade := fragmentsFor_of_runAfter hfree hg ha
  have hmade' := fragmentsFor_of_runAfter hfree' hg' ha'
  -- neither scanning nor rendering reads the two settings
  have hcontext : (contextOf (.ofText parse) (config.scheduled order workers) a').map Context.bare =
      (contextOf (.ofText parse) config a).map Context.bare := by
    rw [contextOf, extract_scheduled]
    exact (bare_contextOf_congr hid htext).symm
  rw [← hid, hcontext] at hmade'
  refine ⟨fun hsame => ?_, ?_, ?_⟩
  · refine eq_of_forall₂ hmade hmade' fun c hc f f' hf hf' => ?_
    have hartifact : c.artifact = a.id := artifact_of_bare (Option.mem_toList.1 hc)
    refine Emission.Renderer.fragment_unique hf hf' ?_
    rw [hartifact]
    exact hsame
  · rw [← hmade.length_eq, Option.toList_map, List.length_map]
  · rw [← hmade'.length_eq, Option.toList_map, List.length_map]

/-! ### One file in two runs -/

theorem fragments_noninterference_sample : ∃ g g',
    (Sample.outlining.runAfter Sample.earlier [Cache.Sample.before]).outcome = .ok g ∧
    ((reading (.ofText Cache.Sample.outlined) (Config.standard.scheduled .discovery .null)).runAfter []
      [SignalWiring.Sample.root, Cache.Sample.moved]).outcome = .ok g' ∧
    Config.standard.isRoot "Foo.cs" = false ∧
    (g.fragmentsFor "Foo.cs").length = 1 ∧ g.fragmentsFor "Foo.cs" = g'.fragmentsFor "Foo.cs" := by
  have hfrom : From (.ofText Cache.Sample.outlined) .standard (fun _ => True) (Sample.outlining.history Sample.earlier) :=
    from_history _ fun _ _ _ _ => trivial
  have hhistory : Sample.outlining.history Sample.earlier = Sample.outlining.settled .fresh [Cache.Sample.before] :=
    run_session (U := fun _ => True) from_fresh (fun _ _ => trivial) (by decide)
  obtain ⟨g, hg⟩ : ∃ g, (Sample.outlining.runAfter Sample.earlier [Cache.Sample.before]).outcome = .ok g :=
    exists_run_of_events ["Jumped"] hfrom (fun _ _ => trivial) (by decide)
      (by rw [hhistory]; decide +kernel) (by decide)
  obtain ⟨g', hg'⟩ : ∃ g', ((reading (.ofText Cache.Sample.outlined)
      (Config.standard.scheduled .discovery .null)).runAfter []
        [SignalWiring.Sample.root, Cache.Sample.moved]).outcome = .ok g' :=
    exists_run_of_events (U := fun _ => True) ["Died", "Jumped"] from_fresh (fun _ _ => trivial)
      (by decide) (by decide +kernel) (by decide)
  have hprint : SignalWiring.Sample.root.fingerprint ≠ Cache.Sample.moved.fingerprint := by
    decide +kernel
  have hsame := fragments_noninterference Cache.Sample.outlined .standard .discovery .null Sample.earlier []
    [Cache.Sample.before] [SignalWiring.Sample.root, Cache.Sample.moved] Cache.Sample.before Cache.Sample.moved g g'
    (.of_two hprint (by decide)) (.of_two hprint (by decide))
    List.mem_cons_self (List.mem_cons_of_mem _ List.mem_cons_self) rfl rfl hg hg'
  have hcontext : (contextOf (.ofText Cache.Sample.outlined) .standard Cache.Sample.before).isSome = true := by
    decide +kernel
  obtain ⟨c, hc⟩ := Option.isSome_iff_exists.1 hcontext
  have hone := hsame.2.1
  rw [hc] at hone
  exact ⟨g, g', hg, hg', by decide, hone, hsame.1 (Or.inl (by decide))⟩

end Pipeline

end SignalWiring
