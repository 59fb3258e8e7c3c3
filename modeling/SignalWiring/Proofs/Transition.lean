/-
What a run makes of a session, and how it can end.

A run on artifacts of which two have the same name stops at once and changes nothing. Every other run stores the contexts
of its artifacts: in place where the artifact is registered, else at the end. Then it returns, unless two events of the
registry clash; what it stored stays stored. Nothing else stops a run, whatever the trees of its artifacts look like.

- `emit_cases`: contexts that are registered are rendered, unless two events clash.
- `made_of_emit`: the fragments and diagnostics of a run that returns.
- `run_transition`: the registry, the fragments and the diagnostics after a run.
- `run_ends`: the three ways in which a run can end, with what each of them says.
-/
import SignalWiring.Proofs.Answers
import SignalWiring.Proofs.Returns

namespace SignalWiring

/-! ## Roots -/

/-- two artifacts that are both the root have the same name -/
theorem Config.eq_of_isRoot {config : Config} {m n : String} (hm : config.isRoot m = true)
    (hn : config.isRoot n = true) : m = n := by
  unfold isRoot Setting.isText at hm hn
  split at hm
  · rename_i t ht
    rw [ht] at hn
    simp only [beq_iff_eq] at hm hn
    rw [← hm, ← hn]
  · cases hm

/-- among contexts of different artifacts there is at most one root -/
theorem length_roots_le {config : Config} {live : List Context} (h : (live.map Context.artifact).Nodup) :
    (live.filter fun c => config.isRoot c.artifact).length ≤ 1 := by
  have hroots : ∀ c ∈ live.filter fun c => config.isRoot c.artifact, config.isRoot c.artifact = true :=
    fun c hc => (List.mem_filter.1 hc).2
  have hdistinct := (List.filter_sublist (p := fun c => config.isRoot c.artifact).map Context.artifact).nodup h
  rcases hfound : live.filter fun c => config.isRoot c.artifact with _ | ⟨c, _ | ⟨d, rest⟩⟩
  · rw [hfound]
    exact Nat.zero_le 1
  · rw [hfound]
    exact le_rfl
  · rw [hfound] at hroots hdistinct
    have hc := hroots c List.mem_cons_self
    have hd := hroots d (List.mem_cons_of_mem _ List.mem_cons_self)
    have hsame : c.artifact = d.artifact := Config.eq_of_isRoot hc hd
    rw [List.map_cons, List.nodup_cons] at hdistinct
    exact absurd (hsame ▸ List.mem_cons_self) hdistinct.1

namespace Pipeline

open Assignment

/-! ## Emission -/

/-- what a run that returns brings about: `registered` were the artifacts before, `es` are the extractions of the run -/
structure Made (config : Config) (registered : List String) (es : List Extraction) (g : Generation) : Prop where
  /-- one fragment for each live context, in order, rendered with the table of the run -/
  fragments : List.Forall₂ (fun c f => ({ config := config } : Emission.Renderer).renderFragment c g.table = .ok f ∧
    f.artifact = c.artifact) (es.filterMap Extraction.context) g.fragments
  /-- at most one of them is the root -/
  root_le : (g.fragments.filter Fragment.isRoot).length ≤ 1
  /-- and one of them is exactly when the root artifact is live -/
  root_iff : (g.fragments.filter Fragment.isRoot).length = 1 ↔
    ∃ c ∈ es.filterMap Extraction.context, config.isRoot c.artifact = true
  /-- the diagnostics of the extractions, and then a notice for each registered artifact that is not live -/
  diagnostics : ∃ notices, g.diagnostics = es.flatMap Extraction.diagnostics ++ notices ∧
    List.Forall₂ StaleNotice
      (registered.filter fun id => id ∉ (es.filterMap Extraction.context).map Context.artifact) notices

section Emission

variable {p : Pipeline} {registry : Registry} {live : List Context} {fragments : List Fragment} {t : IdTable}

/-- Contexts that are registered are rendered, unless two events of the registry clash. -/
theorem emit_cases (ds : List Diagnostic) (hpart : ∀ c ∈ live, Path.IsPart c.artifact)
    (hsub : ∀ c ∈ live, c ∈ registry.snapshot) :
    ((eventNames registry.snapshot).Nodup ∧
      (∀ n ∈ eventNames registry.snapshot, n ∉ BuiltinEvent.all.map BuiltinEvent.key) ∧
      ∃ g, p.emit registry live ds = .ok g) ∨
    ∃ event first second, Clash registry.snapshot event first second ∧
      p.emit registry live ds = .error (.duplicateEvent event first second) := by
  cases ht : assign registry.snapshot p.config.order BuiltinEvent.all with
  | ok t =>
    obtain ⟨hnodup, hnew⟩ := exists_assign_all_iff.1 ⟨t, ht⟩
    obtain ⟨fragments, -, hemit⟩ := exists_emit ds hpart hsub ht
    exact Or.inl ⟨hnodup, hnew, _, hemit⟩
  | error f =>
    obtain ⟨event, first, second, rfl, hclash⟩ := assign_clash ht
    exact Or.inr ⟨event, first, second, hclash, emit_of_fault ht⟩

/-- a fragment is the root when its context is that of the root artifact -/
theorem length_roots_eq (h : p.fragmentsOf live t = .ok fragments) : (fragments.filter Fragment.isRoot).length =
    (live.filter fun c => p.config.isRoot c.artifact).length := by
  have hrendered := mapM_eq_ok h
  clear h
  induction hrendered with
  | nil => rfl
  | cons hf _ ih =>
    obtain ⟨-, hroot, -⟩ := Emission.Renderer.renderFragment_eq_ok hf
    rw [List.filter_cons, List.filter_cons, hroot]
    split_ifs
    · rw [List.length_cons, List.length_cons, ih]
    · exact ih

/-- What is emitted from the registry with the contexts of the extractions stored, these being of different artifacts. -/
theorem made_of_emit {r : Registry} {es : List Extraction} {notices : List Diagnostic} {g : Generation}
    (hlive : ((es.filterMap Extraction.context).map Context.artifact).Nodup)
    (hnotices : ((r.storeAll (es.filterMap Extraction.context)).stale
      ((es.filterMap Extraction.context).map Context.artifact)).mapM staleDiagnostic = .ok notices)
    (h : p.emit registry (es.filterMap Extraction.context) (es.flatMap Extraction.diagnostics ++ notices) = .ok g) :
    Made p.config r.artifacts es g := by
  obtain ⟨-, hfragments, hdiagnostics⟩ := emit_eq_ok h
  have hle : ((es.filterMap Extraction.context).filter fun c => p.config.isRoot c.artifact).length ≤ 1 :=
    length_roots_le hlive
  refine ⟨(mapM_eq_ok hfragments).imp fun c f hf => ⟨hf, (Emission.Renderer.renderFragment_eq_ok hf).1⟩, ?_, ?_, ?_⟩
  · rw [length_roots_eq hfragments]
    exact hle
  · rw [length_roots_eq hfragments]
    constructor
    · intro hone
      obtain ⟨c, hc⟩ := List.exists_mem_of_length_pos (hone ▸ Nat.one_pos)
      obtain ⟨hmem, hroot⟩ := List.mem_filter.1 hc
      exact ⟨c, hmem, hroot⟩
    · rintro ⟨c, hmem, hroot⟩
      exact le_antisymm hle (List.length_pos_of_mem (List.mem_filter.2 ⟨hmem, hroot⟩))
  · rw [Registry.stale_storeAll hlive] at hnotices
    exact ⟨notices, hdiagnostics, staleNotices_of_mapM hnotices⟩

end Emission

/-! ## Transitions -/

/-- what a run on artifacts of different names makes of the session `s`; `es` are the extractions of its artifacts, each
of them that of a `seen` artifact or what is left of a failure -/
structure Transition (read : SourceReader) (config : Config) (seen : List Artifact) (s : Session)
    (artifacts : List Artifact) (step : Step Generation) (es : List Extraction) : Prop where
  extracts : (reading read config).Extracts s artifacts es
  yields : List.Forall₂ (Yields read config (· ∈ seen)) artifacts es
  /-- live contexts replace those of their artifacts or follow at the end, and nothing goes away -/
  stored : step.session.registry.snapshot =
    s.registry.snapshot.map (Registry.renewed (es.filterMap Extraction.context)) ++
      (es.filterMap Extraction.context).filter fun c => c.artifact ∉ s.registry.artifacts
  /-- the run halts when an event of this registry occurs twice or is built in, and only then -/
  halts : (∃ event first second, step.outcome = .error (.duplicateEvent event first second)) ↔
    ¬(eventNames step.session.registry.snapshot).Nodup ∨
      ∃ n ∈ eventNames step.session.registry.snapshot, n ∈ BuiltinEvent.all.map BuiltinEvent.key
  /-- and else it returns -/
  ends : (∃ g, step.outcome = .ok g ∧ Made config s.registry.artifacts es g) ∨
    ∃ event first second, step.outcome = .error (.duplicateEvent event first second)

section Runs

variable {read : SourceReader} {config : Config} {U : Artifact → Prop} {s : Session} {artifacts : List Artifact}

/-- A run on artifacts of different names, after any history: it stores, and then it returns or two events clash. -/
theorem run_cases (h : From read config U s) (hU : ∀ a ∈ artifacts, U a) (hids : (artifacts.map Artifact.id).Nodup) :
    ∃ es, (reading read config).Extracts s artifacts es ∧ List.Forall₂ (Yields read config U) artifacts es ∧
      ((reading read config).run s artifacts).session.registry =
        s.registry.storeAll (es.filterMap Extraction.context) ∧
      (((eventNames ((reading read config).run s artifacts).session.registry.snapshot).Nodup ∧
          (∀ n ∈ eventNames ((reading read config).run s artifacts).session.registry.snapshot,
            n ∉ BuiltinEvent.all.map BuiltinEvent.key) ∧
          ∃ g, ((reading read config).run s artifacts).outcome = .ok g ∧ Made config s.registry.artifacts es g) ∨
        ∃ event first second,
          Clash ((reading read config).run s artifacts).session.registry.snapshot event first second ∧
          ((reading read config).run s artifacts).outcome = .error (.duplicateEvent event first second)) := by
  obtain ⟨es, hextracts, hyields⟩ := exists_extracts h hU
  obtain ⟨hregistry, notices, hnotices, houtcome⟩ := run_of_extracts hids hextracts
  have hlive := nodup_live hyields hids
  refine ⟨es, hextracts, hyields, hregistry, ?_⟩
  rw [hregistry, houtcome]
  rcases emit_cases (p := reading read config) (es.flatMap Extraction.diagnostics ++ notices)
    (isPart_of_live hyields) (mem_registry_of_live hlive) with ⟨hnodup, hnew, g, hg⟩ | hclash
  · exact Or.inl ⟨hnodup, hnew, g, hg, made_of_emit hlive hnotices hg⟩
  · exact Or.inr hclash

end Runs

/-- **Transitions.** After any history, a run on artifacts of which two have the same name stops at the first name that it
meets for the second time, and leaves the session as it was. Any other run stores its live contexts, halts exactly when
two events of the registry clash then, and else returns a fragment for each live context. -/
theorem run_transition (read : SourceReader) (config : Config) (calls : List Call) (artifacts : List Artifact) :
    (¬(artifacts.map Artifact.id).Nodup ∧
      ∃ before a after, artifacts = before ++ a :: after ∧ (before.map Artifact.id).Nodup ∧
        a.id ∈ before.map Artifact.id ∧
        ((reading read config).runAfter calls artifacts).session = (reading read config).history calls ∧
        ((reading read config).runAfter calls artifacts).outcome = .error (.duplicateArtifact a.id)) ∨
    ((artifacts.map Artifact.id).Nodup ∧
      ∃ es, Transition read config (artifacts ++ calls.flatMap Call.artifacts) ((reading read config).history calls)
        artifacts ((reading read config).runAfter calls artifacts) es) := by
  rw [runAfter]
  by_cases hids : (artifacts.map Artifact.id).Nodup
  · refine Or.inr ⟨hids, ?_⟩
    have hfrom : From read config (· ∈ artifacts ++ calls.flatMap Call.artifacts) ((reading read config).history calls) :=
      from_history calls fun call hcall a ha =>
        List.mem_append_right _ (List.mem_flatMap.2 ⟨call, hcall, ha⟩)
    obtain ⟨es, hextracts, hyields, hregistry, hcases⟩ := run_cases hfrom (fun a ha => List.mem_append_left _ ha) hids
    refine ⟨es, hextracts, hyields, ?_, ?_, ?_⟩
    · rw [hregistry]
      exact Registry.snapshot_storeAll (nodup_live hyields hids)
    · rcases hcases with ⟨hnodup, hnew, g, hg, -⟩ | ⟨event, first, second, hclash, houtcome⟩
      · refine iff_of_false ?_ ?_
        · rintro ⟨event, first, second, houtcome⟩
          rw [hg] at houtcome
          cases houtcome
        · rintro (hrepeated | ⟨n, hn, hbuiltin⟩)
          · exact hrepeated hnodup
          · exact hnew n hn hbuiltin
      · exact iff_of_true ⟨event, first, second, houtcome⟩ hclash.repeated_or_builtin
    · rcases hcases with ⟨-, -, hreturned⟩ | ⟨event, first, second, -, houtcome⟩
      · exact Or.inl hreturned
      · exact Or.inr ⟨event, first, second, houtcome⟩
  · obtain ⟨before, a, after, hsplit, hnodup, hmem, hrun⟩ := run_of_first_repeated (reading read config)
      ((reading read config).history calls) hids
    exact Or.inl ⟨hids, before, a, after, hsplit, hnodup, hmem, congrArg Step.session hrun, congrArg Step.outcome hrun⟩

/-! ## Ends -/

/-- the ways in which a run on artifacts can end; it leaves `snapshot` -/
inductive Ends (artifacts : List Artifact) (snapshot : List Context) : Except Fault Generation → Prop where
  /-- with fragments: every name and every event is there once -/
  | returned (g : Generation) (names : (artifacts.map Artifact.id).Nodup) (events : (eventNames snapshot).Nodup)
      (new : ∀ n ∈ eventNames snapshot, n ∉ BuiltinEvent.all.map BuiltinEvent.key) : Ends artifacts snapshot (.ok g)
  /-- with a fault that passes its own checks: two artifacts have the same name -/
  | sameArtifact (id : String) (twice : [id, id].Sublist (artifacts.map Artifact.id))
      (raised : Fault.forDuplicateArtifact id = .ok (.duplicateArtifact id)) :
      Ends artifacts snapshot (.error (.duplicateArtifact id))
  /-- with a fault that passes its own checks: an event is declared twice or built in -/
  | sameEvent (event first second : String) (names : (artifacts.map Artifact.id).Nodup)
      (clash : Clash snapshot event first second)
      (raised : Fault.forDuplicateEvent event first second = .ok (.duplicateEvent event first second)) :
      Ends artifacts snapshot (.error (.duplicateEvent event first second))

/-- **Ends.** Whatever a pipeline was asked before and whatever the trees of the artifacts look like, a run returns, or two
artifacts have the same name, or two events clash. -/
theorem run_ends (read : SourceReader) (config : Config) (calls : List Call) (artifacts : List Artifact) :
    Ends artifacts ((reading read config).runAfter calls artifacts).session.registry.snapshot
      ((reading read config).runAfter calls artifacts).outcome := by
  rw [runAfter]
  by_cases hids : (artifacts.map Artifact.id).Nodup
  · have hfrom : From read config (fun _ => True) ((reading read config).history calls) :=
      from_history calls fun _ _ _ _ => trivial
    obtain ⟨es, -, -, -, ⟨hnodup, hnew, g, hg, -⟩ | ⟨event, first, second, hclash, houtcome⟩⟩ :=
      run_cases hfrom (fun _ _ => trivial) hids
    · rw [hg]
      exact .returned g hids hnodup hnew
    · rw [houtcome]
      exact .sameEvent event first second hids hclash hclash.raised
  · obtain ⟨before, a, after, hsplit, -, hmem, hrun⟩ := run_of_first_repeated (reading read config)
      ((reading read config).history calls) hids
    rw [hrun]
    refine .sameArtifact a.id ?_ (if_neg a.id_ne_empty)
    rw [hsplit, List.map_append, List.map_cons]
    exact (List.singleton_sublist.2 hmem).append (List.singleton_sublist.2 List.mem_cons_self)

end Pipeline

end SignalWiring
