/-
Identifiers that stay.

Numbered as discovered, an event has the place that it has among the events of the registry. Calls other than a reset leave
every artifact of the registry where it stands, and new artifacts go to the end. So as long as the old artifacts declare
what they declared, the old events are the first ones of the new registry, in their old order, wherever the artifacts stand
in the input.

- `continues_run`, `continues_calls`: what one run and what several calls leave in its place.
- `eventNames_prefix`: from artifacts to events.
- `keeps_of_prefix`: from events to identifiers.
- `run_keeps_ids`: what a run that returns makes of a table.
-/
import SignalWiring.Proofs.Reordering

namespace SignalWiring

open Assignment

/-! ## Artifacts -/

namespace Registry

/-- the artifacts of `r` are the first ones of `r'`, in the same order -/
def Continues (r r' : Registry) : Prop := r.artifacts <+: r'.artifacts

/-- the artifacts of `r` declare the same events in `r'` -/
def SameEvents (r r' : Registry) : Prop := ∀ c ∈ r.snapshot, (r'.get? c.artifact).map Context.events = some c.events

instance (r r' : Registry) : Decidable (SameEvents r r') :=
  inferInstanceAs (Decidable (∀ c ∈ r.snapshot, (r'.get? c.artifact).map Context.events = some c.events))

variable {r r' r'' : Registry}

theorem Continues.refl (r : Registry) : Continues r r := List.prefix_rfl

theorem Continues.trans (h : Continues r r') (h' : Continues r' r'') : Continues r r'' := List.IsPrefix.trans h h'

theorem continues_store (r : Registry) (c : Context) : Continues r (r.store c) := by
  have hkeys : (r.store c).artifacts = if c.artifact ∈ r.artifacts then r.artifacts else r.artifacts ++ [c.artifact] :=
    Ledger.keys_put r.contexts c.artifact c
  rw [Continues, hkeys]
  split
  · exact List.prefix_rfl
  · exact List.prefix_append _ _

theorem continues_storeAll (r : Registry) (live : List Context) : Continues r (r.storeAll live) := by
  induction live generalizing r with
  | nil => exact Continues.refl r
  | cons c rest ih => exact (continues_store r c).trans (ih (r.store c))

/-- **Events in their places.** When the old artifacts stand where they stood and declare what they declared, the old events
are the first ones. -/
theorem eventNames_prefix (h : Continues r r') (hsame : SameEvents r r') :
    eventNames r.snapshot <+: eventNames r'.snapshot := by
  obtain ⟨later, hlater⟩ := h
  rw [artifacts_eq, artifacts_eq] at hlater
  obtain ⟨front, back, hsplit, hfront, -⟩ := List.map_eq_append_iff.1 hlater.symm
  -- in both registries the events are what `r'` has for the artifact
  have hnew : ∀ c ∈ front, (r'.get? c.artifact).map Context.events = some c.events := by
    intro c hc
    have hmem : c ∈ r'.snapshot := hsplit ▸ List.mem_append_left back hc
    have hget : r'.get? c.artifact = some c := Ledger.get?_eq_some_iff.2 (mem_snapshot.1 hmem)
    rw [hget]
    rfl
  have heq : front.map (some ∘ Context.events) = r.snapshot.map (some ∘ Context.events) := by
    calc front.map (some ∘ Context.events)
        = (front.map Context.artifact).map fun id => (r'.get? id).map Context.events := by
          rw [List.map_map]
          exact List.map_congr_left fun c hc => (hnew c hc).symm
      _ = (r.snapshot.map Context.artifact).map fun id => (r'.get? id).map Context.events := by rw [hfront]
      _ = r.snapshot.map (some ∘ Context.events) := by
          rw [List.map_map]
          exact List.map_congr_left hsame
  have hevents : front.map Context.events = r.snapshot.map Context.events := by
    rw [← List.map_map, ← List.map_map] at heq
    exact List.map_injective_iff.2 (Option.some_injective _) heq
  rw [hsplit, eventNames, eventNames, List.flatMap_append, List.flatMap_def, List.flatMap_def, hevents]
  exact List.prefix_append _ _

end Registry

/-! ## Identifiers -/

/-- what `t` numbers keeps its identifier in `u`, and what is new there comes after it -/
structure IdTable.Keeps (t u : IdTable) : Prop where
  kept : ∀ n i, t.names.get? n = some i → u.names.get? n = some i
  later : ∀ n i, u.names.get? n = some i → n ∉ t.names.keys → ∀ j ∈ t.ids.keys, j < i

/-- **Events at the end.** Numbered as discovered, events keep their identifiers when others follow them. -/
theorem Assignment.keeps_of_prefix {snapshot others : List Context} {t u : IdTable}
    (ht : assign snapshot .discovery BuiltinEvent.all = .ok t) (hu : assign others .discovery BuiltinEvent.all = .ok u)
    (h : eventNames snapshot <+: eventNames others) : t.Keeps u := by
  have hold := numbers_of_assign consistentKeys_all ht
  have hnew := numbers_of_assign consistentKeys_all hu
  obtain ⟨more, hmore⟩ := h
  constructor
  · intro n i hi
    rcases hold.known n i hi with ⟨b, hb, rfl, rfl⟩ | hn
    · exact hnew.builtin b hb
    · have hn' : n ∈ eventNames others := hmore ▸ List.mem_append_left more hn
      rw [← hi, hold.discovery rfl n hn, hnew.discovery rfl n hn', ← hmore, List.idxOf_append_of_mem hn]
  · intro n i hi hunknown j hj
    rcases hnew.known n i hi with ⟨b, hb, rfl, -⟩ | hn
    · exact absurd (Ledger.mem_keys.2 ⟨_, Ledger.get?_eq_some_iff.1 (hold.builtin b hb)⟩) hunknown
    · have hnot : n ∉ eventNames snapshot := fun hmem => hunknown (hold.mem_keys hmem)
      rw [hnew.discovery rfl n hn, Option.some.injEq, ← hmore, List.idxOf_append_of_notMem hnot] at hi
      rcases (mem_ids_keys ht).1 hj with hbuiltin | hblock
      · obtain ⟨b, hb, rfl⟩ := List.mem_map.1 hbuiltin
        have hlt := id_lt_firstDiscovered b hb
        omega
      · omega

namespace Pipeline

/-! ## Runs -/

section Runs

variable {p : Pipeline} {s : Session} {artifacts : List Artifact} {g : Generation}

/-- what a run has stored when it ends, however it ends -/
theorem registry_complete (p : Pipeline) (s : Session) (n : ℕ) (es : List Extraction) (records : List Log.Record) :
    (p.complete s n es records).session.registry = s.registry.storeAll (es.filterMap Extraction.context) := by
  simp only [complete]
  split
  · rfl
  · split
    · rfl
    · rfl

/-- the table of a run numbers the registry that the run leaves -/
theorem table_of_run (hg : (p.run s artifacts).outcome = .ok g) :
    assign (p.run s artifacts).session.registry.snapshot p.config.order BuiltinEvent.all = .ok g.table := by
  cases hfirst : firstRepeated [] (artifacts.map Artifact.id) with
  | some id =>
    simp only [run, hfirst] at hg
    cases hg
  | none =>
    rcases hall : p.extractAll s.cache artifacts with ⟨after, f | es, records⟩
    · simp only [run, hfirst, hall] at hg
      cases hg
    · obtain ⟨hsession, notices, -, houtcome⟩ := run_of_extractAll (firstRepeated_eq_none_iff.1 hfirst).1 hall
      rw [hsession]
      rw [houtcome] at hg
      exact (emit_eq_ok hg).1

/-- **One run.** A run leaves every registered artifact where it stands, whether it returns or not. -/
theorem continues_run (p : Pipeline) (s : Session) (artifacts : List Artifact) :
    s.registry.Continues (p.run s artifacts).session.registry := by
  simp only [run]
  split
  · exact .refl _
  · split
    · exact .refl _
    · rw [registry_complete]
      exact Registry.continues_storeAll _ _

/-- and so do other calls, unless they reset the pipeline -/
theorem continues_after (p : Pipeline) (s : Session) {call : Call} (h : call ≠ .reset) :
    s.registry.Continues (p.after s call).registry := by
  cases call with
  | run artifacts => exact continues_run p s artifacts
  | runPaths files paths =>
    simp only [after, runPaths]
    split
    · exact .refl _
    · exact continues_run p s _
  | reset => exact absurd rfl h

/-- **Several calls.** Between resets no artifact moves. -/
theorem continues_calls (p : Pipeline) (s : Session) {calls : List Call} (h : .reset ∉ calls) :
    s.registry.Continues (calls.foldl p.after s).registry := by
  induction calls generalizing s with
  | nil => exact .refl _
  | cons call rest ih =>
    rw [List.mem_cons, not_or] at h
    exact (continues_after p s (Ne.symm h.1)).trans (ih (p.after s call) h.2)

/-- Calls between resets keep the identifiers of a table, as long as its artifacts end up with the events that they had. -/
theorem calls_keep_ids (horder : p.config.order = .discovery) {calls : List Call} (h : .reset ∉ calls) {t u : IdTable}
    (ht : assign s.registry.snapshot p.config.order BuiltinEvent.all = .ok t)
    (hu : assign (calls.foldl p.after s).registry.snapshot p.config.order BuiltinEvent.all = .ok u)
    (hsame : s.registry.SameEvents (calls.foldl p.after s).registry) : t.Keeps u := by
  rw [horder] at ht hu
  exact keeps_of_prefix ht hu (Registry.eventNames_prefix (continues_calls p s h) hsame)

end Runs

/-- **Identifiers that stay.** Take a pipeline that numbers events as they are discovered, in any state in which the
events of its registry can be numbered, and a run on any artifacts that returns. If the registered artifacts have the same
events after the run as before, then every event keeps its identifier, and the new ones have larger ones than all of
these. -/
theorem run_keeps_ids (p : Pipeline) (horder : p.config.order = .discovery) (s : Session) (artifacts : List Artifact)
    (t : IdTable) (g : Generation) (ht : assign s.registry.snapshot p.config.order BuiltinEvent.all = .ok t)
    (hg : (p.run s artifacts).outcome = .ok g)
    (hsame : s.registry.SameEvents (p.run s artifacts).session.registry) : t.Keeps g.table := by
  have hone : Call.reset ∉ [Call.run artifacts] := by simp
  exact calls_keep_ids horder hone ht (table_of_run hg) hsame

/-! ### A new artifact in front of the old one -/

theorem run_keeps_ids_sample : ∃ t g,
    Sample.numbering.config.order = .discovery ∧
    assign (Sample.numbering.history [.run [Cache.Sample.before]]).registry.snapshot Sample.numbering.config.order
      BuiltinEvent.all = .ok t ∧
    (Sample.numbering.run (Sample.numbering.history [.run [Cache.Sample.before]])
      [SignalWiring.Sample.root, Cache.Sample.before]).outcome = .ok g ∧
    (Sample.numbering.history [.run [Cache.Sample.before]]).registry.SameEvents
      (Sample.numbering.run (Sample.numbering.history [.run [Cache.Sample.before]])
        [SignalWiring.Sample.root, Cache.Sample.before]).session.registry ∧
    t.Keeps g.table := by
  have hfrom : From (.ofText Cache.Sample.outlined) Sample.discovering (fun _ => True)
      (Sample.numbering.history [.run [Cache.Sample.before]]) := from_history _ fun _ _ _ _ => trivial
  have hhistory : Sample.numbering.history [.run [Cache.Sample.before]] =
      Sample.numbering.settled .fresh [Cache.Sample.before] :=
    run_session (U := fun _ => True) from_fresh (fun _ _ => trivial) (by decide)
  have hsession : (Sample.numbering.run (Sample.numbering.history [.run [Cache.Sample.before]])
      [SignalWiring.Sample.root, Cache.Sample.before]).session =
        Sample.numbering.settled (Sample.numbering.history [.run [Cache.Sample.before]])
          [SignalWiring.Sample.root, Cache.Sample.before] :=
    run_session hfrom (fun _ _ => trivial) (by decide)
  -- the registries before and after the run, evaluated once
  have hbetween : eventNames (Sample.numbering.settled .fresh [Cache.Sample.before]).registry.snapshot = ["Jumped"] ∧
      eventNames (Sample.numbering.settled (Sample.numbering.settled .fresh [Cache.Sample.before])
        [SignalWiring.Sample.root, Cache.Sample.before]).registry.snapshot = ["Jumped", "Died"] ∧
      (Sample.numbering.settled .fresh [Cache.Sample.before]).registry.SameEvents
        (Sample.numbering.settled (Sample.numbering.settled .fresh [Cache.Sample.before])
          [SignalWiring.Sample.root, Cache.Sample.before]).registry := by
    decide +kernel
  rw [← hhistory] at hbetween
  obtain ⟨hbefore, hafter, hsame⟩ := hbetween
  rw [← hsession] at hsame
  obtain ⟨t, ht⟩ : ∃ t, assign (Sample.numbering.history [.run [Cache.Sample.before]]).registry.snapshot
      Sample.numbering.config.order BuiltinEvent.all = .ok t := by
    rw [exists_assign_all_iff, hbefore]
    decide
  obtain ⟨g, hg⟩ : ∃ g, (Sample.numbering.run (Sample.numbering.history [.run [Cache.Sample.before]])
      [SignalWiring.Sample.root, Cache.Sample.before]).outcome = .ok g :=
    exists_run_of_events (U := fun _ => True) ["Jumped", "Died"] hfrom (fun _ _ => trivial) (by decide) hafter
      (by decide)
  exact ⟨t, g, rfl, ht, hg, hsame, run_keeps_ids _ rfl _ _ t g ht hg hsame⟩

end Pipeline

end SignalWiring
