/-
Failures stay local.

An artifact that yields no context, because its extraction fails or because there is no container in it, makes no
difference to a run but for its own diagnostics: the run with it and the run without it end alike. This holds after any
history, so the artifact may be registered and even cached from an earlier run.

- `emit_with`, `apart_emit`: diagnostics are passed on and nothing else depends on them.
- `run_without`: the runs with and without the artifact.
-/
import SignalWiring.Proofs.Transition

namespace SignalWiring.Pipeline

/-! ## Emission -/

/-- Diagnostics are passed on, and nothing else depends on them. -/
theorem emit_with (p : Pipeline) (registry : Registry) (live : List Context) (ds others : List Diagnostic) :
    p.emit registry live others = (p.emit registry live ds).map fun g => { g with diagnostics := others } := by
  cases ht : Assignment.assign registry.snapshot p.config.order BuiltinEvent.all with
  | error f =>
    rw [emit_of_fault ht, emit_of_fault ht]
    rfl
  | ok t =>
    unfold emit
    rw [ht]
    change (p.fragmentsOf live t >>= _) = (p.fragmentsOf live t >>= _).map _
    cases p.fragmentsOf live t with
    | error f => rfl
    | ok fragments => rfl

/-! ## With the artifact and without it -/

/-- ends of two runs that are the same, but that the first has the diagnostics `own` after those of `front` -/
inductive Apart (front own : List Diagnostic) : Except Fault Generation → Except Fault Generation → Prop where
  /-- both halt on the same events -/
  | halted (event first second : String) :
      Apart front own (.error (.duplicateEvent event first second)) (.error (.duplicateEvent event first second))
  /-- both return the same fragments and the same table -/
  | returned (fragments : List Fragment) (table : IdTable) (rest : List Diagnostic) :
      Apart front own (.ok ⟨fragments, front ++ own ++ rest, table⟩) (.ok ⟨fragments, front ++ rest, table⟩)

theorem apart_emit {p : Pipeline} {registry : Registry} {live : List Context} (front own rest : List Diagnostic)
    (hpart : ∀ c ∈ live, Path.IsPart c.artifact) (hsub : ∀ c ∈ live, c ∈ registry.snapshot) :
    Apart front own (p.emit registry live (front ++ own ++ rest)) (p.emit registry live (front ++ rest)) := by
  rw [emit_with p registry live (front ++ rest) (front ++ own ++ rest)]
  rcases emit_cases (p := p) (front ++ rest) hpart hsub with
    ⟨-, -, ⟨fragments, ds, table⟩, hg⟩ | ⟨event, first, second, -, hclash⟩
  · obtain ⟨-, -, hds⟩ := emit_eq_ok hg
    obtain rfl : ds = front ++ rest := hds
    rw [hg]
    exact .returned fragments table rest
  · rw [hclash]
    exact .halted event first second

/-- **Locality.** After any history, take a run on artifacts of different names of which one, `a`, yields no context. Without
`a` the run ends alike and leaves the same registry. It lacks the diagnostics of `a`, which stand after those of the
artifacts before it: one error when its extraction fails, and none when there is no container in it. What is extracted of
`a` is asked of the session before the run, since artifacts of other names do not change it. -/
theorem run_without (read : SourceReader) (config : Config) (calls : List Call) (xs ys : List Artifact) (a : Artifact)
    (hids : ((xs ++ [a] ++ ys).map Artifact.id).Nodup)
    (hnone : ∀ e, ((reading read config).answer ((reading read config).history calls) a).outcome = .ok e →
      e.context = none) :
    ∃ es own, (reading read config).Extracts ((reading read config).history calls) xs es ∧
      OwnReport a ((reading read config).answer ((reading read config).history calls) a).outcome own ∧
      ((reading read config).runAfter calls (xs ++ [a] ++ ys)).session.registry =
        ((reading read config).runAfter calls (xs ++ ys)).session.registry ∧
      Apart (es.flatMap Extraction.diagnostics) own ((reading read config).runAfter calls (xs ++ [a] ++ ys)).outcome
        ((reading read config).runAfter calls (xs ++ ys)).outcome := by
  rw [runAfter, runAfter]
  have hfrom : From read config (fun _ => True) ((reading read config).history calls) :=
    from_history calls fun _ _ _ _ => trivial
  obtain ⟨es, hes, hesfrom⟩ := exists_extracts hfrom fun x (_ : x ∈ xs) => trivial
  obtain ⟨later, hlater, hlaterfrom⟩ := exists_extracts hfrom fun y (_ : y ∈ ys) => trivial
  obtain ⟨e, he, hcontext, hown⟩ := exists_yield_of_barren hfrom trivial hnone
  have hshort : ((xs ++ ys).map Artifact.id).Nodup :=
    (((List.sublist_append_left xs [a]).append_right ys).map Artifact.id).nodup hids
  have hwith := run_of_extracts hids (List.rel_append (List.rel_append hes (.cons he .nil)) hlater)
  have hwithout := run_of_extracts hshort (List.rel_append hes hlater)
  -- `a` has no context, so both runs have the same live contexts
  have hlive : (es ++ [e] ++ later).filterMap Extraction.context = (es ++ later).filterMap Extraction.context := by
    rw [List.filterMap_append, List.filterMap_append, List.filterMap_append, List.filterMap_cons, hcontext,
      List.filterMap_nil, List.append_nil]
  rw [hlive] at hwith
  obtain ⟨hregistry, notices, hnotices, houtcome⟩ := hwith
  obtain ⟨hregistry', notices', hnotices', houtcome'⟩ := hwithout
  obtain rfl : notices = notices' := Except.ok.inj (hnotices.symm.trans hnotices')
  refine ⟨es, e.diagnostics, hes, hown, hregistry.trans hregistry'.symm, ?_⟩
  have hwhole : (es ++ [e] ++ later).flatMap Extraction.diagnostics ++ notices =
      es.flatMap Extraction.diagnostics ++ e.diagnostics ++ (later.flatMap Extraction.diagnostics ++ notices) := by
    simp only [List.flatMap_append, List.flatMap_cons, List.flatMap_nil, List.append_nil, List.append_assoc]
  have hrest : (es ++ later).flatMap Extraction.diagnostics ++ notices =
      es.flatMap Extraction.diagnostics ++ (later.flatMap Extraction.diagnostics ++ notices) := by
    rw [List.flatMap_append, List.append_assoc]
  have hyields := List.rel_append hesfrom hlaterfrom
  rw [houtcome, houtcome', hwhole, hrest]
  exact apart_emit _ _ _ (isPart_of_live hyields) (mem_registry_of_live (nodup_live hyields hshort))

/-! ### A registered file that declares nothing any more -/

namespace Sample

/-- the file, registered earlier, with nothing in it -/
def emptied : Artifact := ⟨Cache.Sample.before.path, "", by decide⟩

/-- another file with an event of its own -/
def dying : Artifact :=
  ⟨⟨.here, ["Bar.cs"], by decide⟩,
    "partial class Behavior\n\x7b\n    [Signal] delegate void DiedEventHandler();\n\x7d\n", by decide⟩

/-- the file as it was is all that was run -/
def registered : List Call := [.run [Cache.Sample.before]]

end Sample

theorem run_without_sample :
    (Sample.outlining.history Sample.registered).registry.artifacts = ["Foo.cs"] ∧
    (([Sample.dying] ++ [Sample.emptied] ++ []).map Artifact.id).Nodup ∧
    (∀ e, (Sample.outlining.answer (Sample.outlining.history Sample.registered) Sample.emptied).outcome = .ok e →
      e.context = none) ∧
    ∃ es own, Sample.outlining.Extracts (Sample.outlining.history Sample.registered) [Sample.dying] es ∧
      OwnReport Sample.emptied
        (Sample.outlining.answer (Sample.outlining.history Sample.registered) Sample.emptied).outcome own ∧
      (Sample.outlining.runAfter Sample.registered ([Sample.dying] ++ [Sample.emptied] ++ [])).session.registry =
        (Sample.outlining.runAfter Sample.registered ([Sample.dying] ++ [])).session.registry ∧
      Apart (es.flatMap Extraction.diagnostics) own
        (Sample.outlining.runAfter Sample.registered ([Sample.dying] ++ [Sample.emptied] ++ [])).outcome
        (Sample.outlining.runAfter Sample.registered ([Sample.dying] ++ [])).outcome := by
  have hhistory : Sample.outlining.history Sample.registered = Sample.outlining.settled .fresh [Cache.Sample.before] :=
    run_session (U := fun _ => True) from_fresh (fun _ _ => trivial) (by decide)
  have hartifacts : (Sample.outlining.history Sample.registered).registry.artifacts = ["Foo.cs"] := by
    rw [hhistory]
    decide +kernel
  have hids : (([Sample.dying] ++ [Sample.emptied] ++ []).map Artifact.id).Nodup := by decide
  have hbare : ((Sample.outlining.answer (Sample.outlining.history Sample.registered)
      Sample.emptied).outcome.toOption.bind Extraction.context).isNone = true := by
    rw [hhistory]
    decide +kernel
  have hnone : ∀ e, (Sample.outlining.answer (Sample.outlining.history Sample.registered) Sample.emptied).outcome =
      .ok e → e.context = none := by
    intro e he
    rw [he] at hbare
    exact Option.isNone_iff_eq_none.1 hbare
  have hwithout := run_without (.ofText Cache.Sample.outlined) .standard Sample.registered [Sample.dying] []
    Sample.emptied hids hnone
  exact ⟨hartifacts, hids, hnone, hwithout⟩

end SignalWiring.Pipeline
