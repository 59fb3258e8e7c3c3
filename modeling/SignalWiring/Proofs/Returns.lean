/-
When a run returns.

- `exists_emit`: as soon as the events of the registry are numbered, the live contexts are rendered.
- `run_returns_iff`: after any history a run returns exactly when its artifacts have different names and, with its contexts
  stored, no event of the registry occurs twice or is built in.
-/
import SignalWiring.Proofs.Emission
import SignalWiring.Proofs.Session

namespace SignalWiring.Pipeline

open Assignment

section Returns

variable {read : SourceReader} {config : Config} {U : Artifact → Prop} {s : Session} {artifacts : List Artifact}
  {es : List Extraction} {ds : List Diagnostic}

/-- contexts of artifacts have file names -/
theorem isPart_of_sublist {contexts : List Context}
    (h : (contexts.map Context.artifact).Sublist (artifacts.map Artifact.id)) :
    ∀ c ∈ contexts, Path.IsPart c.artifact := by
  intro c hc
  obtain ⟨a, -, ha⟩ := List.mem_map.1 (h.subset (List.mem_map_of_mem hc))
  rw [← ha]
  exact a.isPart_id

/-- and so have the live contexts -/
theorem isPart_of_live (h : List.Forall₂ (Yields read config U) artifacts es) :
    ∀ c ∈ es.filterMap Extraction.context, Path.IsPart c.artifact := isPart_of_sublist (map_artifact_sublist h)

/-- what is live is in the registry after the run -/
theorem mem_registry_of_live (hlive : ((es.filterMap Extraction.context).map Context.artifact).Nodup) :
    ∀ c ∈ es.filterMap Extraction.context, c ∈ (s.registry.storeAll (es.filterMap Extraction.context)).snapshot :=
  fun _ hc => (Registry.mem_snapshot_storeAll hlive).2 (Or.inl hc)

/-- With the events numbered, the live contexts are rendered. -/
theorem exists_emit {p : Pipeline} {registry : Registry} {live : List Context} {t : IdTable}
    (ds : List Diagnostic) (hpart : ∀ c ∈ live, Path.IsPart c.artifact) (hsub : ∀ c ∈ live, c ∈ registry.snapshot)
    (ht : assign registry.snapshot p.config.order BuiltinEvent.all = .ok t) :
    ∃ fragments, p.fragmentsOf live t = .ok fragments ∧ p.emit registry live ds = .ok ⟨fragments, ds, t⟩ := by
  have hnumbers := numbers_of_assign consistentKeys_all ht
  obtain ⟨fragments, hfragments⟩ := exists_fragmentsOf (p := p) hpart fun c hc e he =>
    hnumbers.mem_keys (List.mem_flatMap.2 ⟨c, hsub c hc, he⟩)
  exact ⟨fragments, hfragments, emit_of_table ht hfragments⟩

/-- **When a run returns.** Its artifacts have different names, and then no event of the registry occurs twice or is
built in. -/
theorem run_returns_iff (h : From read config U s) (hU : ∀ a ∈ artifacts, U a) :
    (∃ g, ((reading read config).run s artifacts).outcome = .ok g) ↔
      (artifacts.map Artifact.id).Nodup ∧
      (eventNames ((reading read config).run s artifacts).session.registry.snapshot).Nodup ∧
      ∀ n ∈ eventNames ((reading read config).run s artifacts).session.registry.snapshot,
        n ∉ BuiltinEvent.all.map BuiltinEvent.key := by
  constructor
  · rintro ⟨g, hg⟩
    have hids := nodup_of_run_ok hg
    obtain ⟨es, ds, hcourse⟩ := run_course h hU hids
    rw [hcourse.outcome] at hg
    have htable := (emit_eq_ok hg).1
    rw [hcourse.registry]
    exact ⟨hids, exists_assign_all_iff.1 ⟨_, htable⟩⟩
  · rintro ⟨hids, hevents⟩
    obtain ⟨es, ds, hcourse⟩ := run_course h hU hids
    rw [hcourse.registry] at hevents
    obtain ⟨t, ht⟩ : ∃ t, assign _ config.order BuiltinEvent.all = .ok t := exists_assign_all_iff.2 hevents
    obtain ⟨fragments, -, hemit⟩ := exists_emit (p := reading read config) (es.flatMap Extraction.diagnostics ++ ds)
      (isPart_of_live hcourse.yields) (mem_registry_of_live (nodup_live hcourse.yields hids)) ht
    exact ⟨_, hcourse.outcome.trans hemit⟩

/-- A run whose registry has these events in the end returns. -/
theorem exists_run_of_events (events : List String) (h : From read config U s) (hU : ∀ a ∈ artifacts, U a)
    (hids : (artifacts.map Artifact.id).Nodup)
    (hevents : eventNames ((reading read config).settled s artifacts).registry.snapshot = events)
    (hnew : events.Nodup ∧ ∀ n ∈ events, n ∉ BuiltinEvent.all.map BuiltinEvent.key) :
    ∃ g, ((reading read config).run s artifacts).outcome = .ok g := by
  refine (run_returns_iff h hU).2 ⟨hids, ?_⟩
  rw [run_session h hU hids, hevents]
  exact hnew

end Returns

end SignalWiring.Pipeline
