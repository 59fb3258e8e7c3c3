/-
Runs, one after the other.

The pipeline is the one that reads its artifacts with `read`, behind a cache; `U` is what is known of the artifacts that
it has seen. `From U s`: everything that the session `s` keeps was extracted from such artifacts, and is filed under their
names and digests. Runs, halted or not, and resets keep that up.

- `Kept.exists_absorbed`, `extractAll_yields`: extraction comes to its end. Every artifact yields the extraction of an
  artifact of its name with its digest, or a diagnostic and no context.
- `run_of_extractAll`: what a run does with its extractions.
- `run_course`: what a run on artifacts of different names does, up to the numbering of events.
- `from_history`: `From U` after any history.
-/
import SignalWiring.Pipeline
import SignalWiring.Proofs.Registry
import SignalWiring.Proofs.Transparency

namespace SignalWiring.Pipeline

/-! ## Faults that become diagnostics -/

/-- nothing but diagnostics about the source -/
structure Barren (a : Artifact) (e : Extraction) : Prop where
  artifact : e.artifact = a.id
  context : e.context = none
  ofSource : ∀ d ∈ e.diagnostics, d.OfSource

/-- the diagnostic `d` is the error that the fault of an artifact becomes -/
structure Tells (a : Artifact) (f : Fault) (d : Diagnostic) : Prop where
  artifact : d.artifact = a.id
  severity : d.severity = .error
  unreadable : ∀ path reason, f = .unreadable path reason → d.kind = .unreadableArtifact ∧ d.message = reason
  failed : (∀ path reason, f ≠ .unreadable path reason) → d.kind = .extractionFailed ∧ d.message = f.message
  nowhere : d.location = none

theorem onlyDiagnostic_eq (a : Artifact) (kind : DiagnosticKind) (severity : Severity) {message : String}
    (hmessage : message ≠ "") :
    onlyDiagnostic a.id (Diagnostic.make kind severity message a.id none none) =
      .ok ⟨a.id, none, [⟨kind, severity, message, a.id, none, none, hmessage, a.id_ne_empty⟩], a.id_ne_empty,
        fun _ hc => nomatch hc⟩ := by
  rw [Diagnostic.make_eq_ok hmessage a.id_ne_empty]
  simp only [onlyDiagnostic, Except.bind, Extraction.make, dif_neg a.id_ne_empty]

theorem Tells.barren {a : Artifact} {e : Extraction} {f : Fault} {d : Diagnostic} (h : Tells a f d)
    (hartifact : e.artifact = a.id) (hcontext : e.context = none) (hds : e.diagnostics = [d]) : Barren a e := by
  refine ⟨hartifact, hcontext, fun x hx => ?_⟩
  rw [hds, List.mem_singleton] at hx
  subst hx
  unfold Diagnostic.OfSource
  by_cases hf : ∃ path reason, f = .unreadable path reason
  · obtain ⟨path, reason, hf⟩ := hf
    rw [(h.unreadable path reason hf).1]
    decide
  · rw [(h.failed fun path reason heq => hf ⟨path, reason, heq⟩).1]
    decide

/-- A fault of an extraction is absorbed: it becomes one error. -/
theorem exists_absorb {a : Artifact} {s : Scanned} {f : Fault} (hs : s.outcome = .error f)
    (hf : f = .unreadable a.path "parser returned no tree" ∨ f.IsLocal) :
    ∃ e d, (absorb a s).outcome = .ok e ∧ e.artifact = a.id ∧ e.context = none ∧ e.diagnostics = [d] ∧ Tells a f d := by
  rcases hf with rfl | hlocal
  · simp only [absorb, hs]
    refine ⟨_, _, onlyDiagnostic_eq a _ _ (by decide), rfl, rfl, rfl, rfl, rfl, fun _ _ h => ?_, fun h => ?_, rfl⟩
    · cases h
      exact ⟨rfl, rfl⟩
    · exact absurd rfl (h _ _)
  · cases f with
    | invalid cause =>
      simp only [absorb, hs]
      exact ⟨_, _, onlyDiagnostic_eq a _ _ hlocal.2, rfl, rfl, rfl, rfl, rfl, fun _ _ h => (nomatch h),
        fun _ => ⟨rfl, rfl⟩, rfl⟩
    | undecodable cause =>
      simp only [absorb, hs]
      exact ⟨_, _, onlyDiagnostic_eq a _ _ hlocal.2, rfl, rfl, rfl, rfl, rfl, fun _ _ h => (nomatch h),
        fun _ => ⟨rfl, rfl⟩, rfl⟩
    | _ => exact absurd hlocal.1 (by simp [Fault.isValue])

theorem absorb_of_ok {a : Artifact} {s : Scanned} {e : Extraction} (hs : s.outcome = .ok e) : absorb a s = s := by
  simp only [absorb, hs]

/-! ## Extraction through the cache -/

section Runs

variable (read : SourceReader) (config : Config) (U : Artifact → Prop)

/-- what a run has of an artifact -/
inductive Yields (a : Artifact) (e : Extraction) : Prop where
  /-- the extraction of an artifact of its name with its digest -/
  | scanned (b : Artifact) (known : U b) (named : b.id = a.id) (printed : b.fingerprint = a.fingerprint)
      (extracted : extract read config b = .ok e)
  /-- what is left when its extraction fails -/
  | failed (fault : Fault) (refused : extract read config a = .error fault) (barren : Barren a e)

/-- what a cache keeps was extracted from artifacts with `U`, and is filed under their names and digests -/
def Kept (c : Cache) : Prop :=
  ∀ id print e, c.entries.get? id = some (print, e) →
    ∃ b, U b ∧ b.id = id ∧ b.fingerprint = print ∧ extract read config b = .ok e

variable {read config U} {a : Artifact} {e : Extraction} {c : Cache}

theorem Yields.fits (h : Yields read config U a e) : e.Fits config a := by
  cases h with
  | scanned b hb hid hprint he =>
    obtain ⟨hartifact, hnamed, hsource⟩ := extract_fits he
    exact ⟨hartifact.trans hid, hnamed, hsource⟩
  | failed f hf hbarren =>
    refine ⟨hbarren.artifact, fun c hc => ?_, hbarren.ofSource⟩
    rw [hbarren.context] at hc
    cases hc

theorem kept_empty : Kept read config U .empty := fun _ _ _ h => nomatch h

theorem Kept.keep (h : Kept read config U c) (ha : U a) (he : extract read config a = .ok e) :
    Kept read config U (c.keep a e) := by
  intro id print e' hget
  by_cases hid : id = a.id
  · subst hid
    rw [Cache.keep, Ledger.get?_put_self] at hget
    cases hget
    exact ⟨a, ha, rfl, rfl, he⟩
  · rw [Cache.keep, Ledger.get?_put_of_ne _ _ hid] at hget
    exact h id print e' hget

theorem Kept.of_lookup (h : Kept read config U c) (hlook : c.lookup a = some e) :
    ∃ b, U b ∧ b.id = a.id ∧ b.fingerprint = a.fingerprint ∧ extract read config b = .ok e := by
  simp only [Cache.lookup] at hlook
  split at hlook
  · rename_i print e' hget
    split at hlook
    · rename_i hprint
      cases hlook
      obtain ⟨b, hb, hid, hbprint, he⟩ := h _ _ _ hget
      exact ⟨b, hb, hid, hbprint.trans hprint, he⟩
    · cases hlook
  · cases hlook

/-- An artifact is answered with the extraction of one of its name with its digest, or with its own fault. -/
theorem Kept.extract_cases (h : Kept read config U c) (ha : U a) :
    (∃ b e, U b ∧ b.id = a.id ∧ b.fingerprint = a.fingerprint ∧ extract read config b = .ok e ∧
      (c.extract (.reading read config) a).2.outcome = .ok e) ∨
    ∃ f, extract read config a = .error f ∧ (c.extract (.reading read config) a).2.outcome = .error f := by
  cases hlook : c.lookup a with
  | some e =>
    obtain ⟨b, hb, hid, hprint, he⟩ := h.of_lookup hlook
    refine Or.inl ⟨b, e, hb, hid, hprint, he, ?_⟩
    rw [Cache.extract_of_lookup_some hlook]
  | none =>
    rw [(Cache.extract_of_lookup_none _ hlook).1, reading_outcome]
    cases hout : extract read config a with
    | ok e => exact Or.inl ⟨a, e, ha, rfl, rfl, hout, rfl⟩
    | error f => exact Or.inr ⟨f, rfl, rfl⟩

/-- **One artifact.** An artifact yields an extraction, whatever is cached: that of an artifact of its name with its
digest, or what is left when its own fails. -/
theorem Kept.exists_absorbed (h : Kept read config U c) (ha : U a) :
    ∃ e, (absorb a (c.extract (.reading read config) a).2).outcome = .ok e ∧ Yields read config U a e := by
  rcases h.extract_cases ha with ⟨b, e, hb, hid, hprint, he, hanswer⟩ | ⟨f, hf, hanswer⟩
  · rw [absorb_of_ok hanswer]
    exact ⟨e, hanswer, .scanned b hb hid hprint he⟩
  · obtain ⟨e, d, he, hartifact, hcontext, hds, htells⟩ := exists_absorb hanswer (extract_fault hf)
    exact ⟨e, he, .failed f hf (htells.barren hartifact hcontext hds)⟩

/-- what an extraction adds to a cache was extracted from its artifact -/
theorem Kept.extracted (h : Kept read config U c) (ha : U a) :
    Kept read config U (c.extract (.reading read config) a).1 := by
  cases hlook : c.lookup a with
  | some e =>
    rw [Cache.extract_of_lookup_some hlook]
    exact h
  | none =>
    obtain ⟨-, hok, herror⟩ := Cache.extract_of_lookup_none (.reading read config) hlook
    cases hout : extract read config a with
    | ok e =>
      rw [hok e ((reading_outcome read config a).trans hout)]
      exact h.keep ha hout
    | error f =>
      rw [herror f ((reading_outcome read config a).trans hout)]
      exact h

/-- **Extraction.** No extraction ends a run, and each artifact yields one. -/
theorem extractAll_yields {artifacts : List Artifact} (h : Kept read config U c) (hU : ∀ a ∈ artifacts, U a) :
    ∃ after es records, (reading read config).extractAll c artifacts = (after, .ok es, records) ∧
      List.Forall₂ (Yields read config U) artifacts es ∧ Kept read config U after := by
  induction artifacts generalizing c with
  | nil => exact ⟨c, [], [], rfl, .nil, h⟩
  | cons a rest ih =>
    have ha := hU a List.mem_cons_self
    obtain ⟨e, he, hyields⟩ := h.exists_absorbed ha
    obtain ⟨after, es, records, hrest, hall, hafter⟩ := ih (h.extracted ha) fun x hx => hU x (List.mem_cons_of_mem _ hx)
    have hone : (reading read config).extractOne c a =
        ((c.extract (.reading read config) a).1, absorb a (c.extract (.reading read config) a).2) := rfl
    have hcons : (reading read config).extractAll c (a :: rest) =
        (after, .ok (e :: es), ((reading read config).extractOne c a).2.records ++ records) := by
      simp only [extractAll, hone, he, hrest]
      rfl
    exact ⟨after, e :: es, _, hcons, .cons hyields hall, hafter⟩

/-! ## One run -/

/-- everything that a session keeps comes from artifacts with `U` -/
structure From (read : SourceReader) (config : Config) (U : Artifact → Prop) (s : Session) : Prop where
  kept : Kept read config U s.cache
  registered : ∀ c ∈ s.registry.snapshot, ∃ b e, U b ∧ extract read config b = .ok e ∧ c ∈ e.context

theorem from_fresh : From read config U .fresh := ⟨kept_empty, fun _ h => nomatch h⟩

theorem exists_staleDiagnostics {ids : List String} (h : ∀ id ∈ ids, id ≠ "") :
    ∃ ds, ids.mapM staleDiagnostic = .ok ds :=
  exists_mapM fun id hid => ⟨_, Diagnostic.make_eq_ok (by decide) (h id hid)⟩

/-- **What a run does.** When its extractions are made, it stores their contexts and emits from the registry, and whether
that comes to an end makes no difference to what is stored. -/
theorem run_of_extractAll {p : Pipeline} {s : Session} {artifacts : List Artifact} {after : Cache}
    {es : List Extraction} {records : List Log.Record} (hids : (artifacts.map Artifact.id).Nodup)
    (hall : p.extractAll s.cache artifacts = (after, .ok es, records)) :
    (p.run s artifacts).session = ⟨s.registry.storeAll (es.filterMap Extraction.context), after⟩ ∧
    ∃ notices,
      ((s.registry.storeAll (es.filterMap Extraction.context)).stale
        ((es.filterMap Extraction.context).map Context.artifact)).mapM staleDiagnostic = .ok notices ∧
      (p.run s artifacts).outcome = p.emit (s.registry.storeAll (es.filterMap Extraction.context))
        (es.filterMap Extraction.context) (es.flatMap Extraction.diagnostics ++ notices) := by
  have hfirst : firstRepeated [] (artifacts.map Artifact.id) = none :=
    firstRepeated_eq_none_iff.2 ⟨hids, fun _ _ hn => nomatch hn⟩
  have hrun : p.run s artifacts = p.complete { s with cache := after } artifacts.length es records := by
    simp only [run, hfirst, hall]
  have hnames : ∀ id ∈ (s.registry.storeAll (es.filterMap Extraction.context)).stale
      ((es.filterMap Extraction.context).map Context.artifact), id ≠ "" :=
    fun id hid => Registry.ne_empty_of_mem_stale hid
  obtain ⟨notices, hnotices⟩ := exists_staleDiagnostics hnames
  refine ⟨?_, notices, hnotices, ?_⟩
  · rw [hrun]
    simp only [complete, hnotices]
    split
    · rfl
    · rfl
  · rw [hrun]
    simp only [complete, hnotices]
    split
    · rename_i f hf
      exact hf.symm
    · rename_i g hg
      exact hg.symm

/-- the contexts that a run on artifacts extracts -/
def live (p : Pipeline) (s : Session) (artifacts : List Artifact) : List Context :=
  match (p.extractAll s.cache artifacts).2.1 with
  | .ok es => es.filterMap Extraction.context
  | .error _ => []

/-- the session after a run on artifacts of different names -/
def settled (p : Pipeline) (s : Session) (artifacts : List Artifact) : Session :=
  ⟨s.registry.storeAll (p.live s artifacts), (p.extractAll s.cache artifacts).1⟩

/-- what a run does: `es` is what its artifacts yield, `ds` are the diagnostics of stale entries -/
structure Course (read : SourceReader) (config : Config) (U : Artifact → Prop) (s : Session) (artifacts : List Artifact)
    (es : List Extraction) (ds : List Diagnostic) : Prop where
  yields : List.Forall₂ (Yields read config U) artifacts es
  live : (reading read config).live s artifacts = es.filterMap Extraction.context
  session : ((reading read config).run s artifacts).session = (reading read config).settled s artifacts
  kept : Kept read config U ((reading read config).settled s artifacts).cache
  stale : ds.length = ((s.registry.storeAll (es.filterMap Extraction.context)).stale
    ((es.filterMap Extraction.context).map Context.artifact)).length
  outcome : ((reading read config).run s artifacts).outcome =
    (reading read config).emit (s.registry.storeAll (es.filterMap Extraction.context)) (es.filterMap Extraction.context)
      (es.flatMap Extraction.diagnostics ++ ds)

/-- **The course of a run.** On artifacts of different names a run stores the contexts that they yield and comes to the
numbering of events. -/
theorem run_course {s : Session} {artifacts : List Artifact} (h : From read config U s) (hU : ∀ a ∈ artifacts, U a)
    (hids : (artifacts.map Artifact.id).Nodup) : ∃ es ds, Course read config U s artifacts es ds := by
  obtain ⟨after, es, records, hall, hyields, hkept⟩ := extractAll_yields h.kept hU
  obtain ⟨hsession, ds, hds, houtcome⟩ := run_of_extractAll hids hall
  have hlive : (reading read config).live s artifacts = es.filterMap Extraction.context := by simp only [live, hall]
  have hsettled : (reading read config).settled s artifacts =
      ⟨s.registry.storeAll (es.filterMap Extraction.context), after⟩ := by simp only [settled, hlive, hall]
  exact ⟨es, ds, hyields, hlive, hsession.trans hsettled.symm, hsettled ▸ hkept, (mapM_eq_ok hds).length_eq.symm,
    houtcome⟩

theorem Course.registry {s : Session} {artifacts : List Artifact} {es : List Extraction} {ds : List Diagnostic}
    (h : Course read config U s artifacts es ds) : ((reading read config).run s artifacts).session.registry =
      s.registry.storeAll (es.filterMap Extraction.context) := by
  rw [h.session, settled, h.live]

/-- What a run keeps does not depend on whether its events can be numbered. -/
theorem run_session {s : Session} {artifacts : List Artifact} (h : From read config U s) (hU : ∀ a ∈ artifacts, U a)
    (hids : (artifacts.map Artifact.id).Nodup) :
    ((reading read config).run s artifacts).session = (reading read config).settled s artifacts := by
  obtain ⟨es, ds, hcourse⟩ := run_course h hU hids
  exact hcourse.session

/-- a run stops at the first name that it meets for the second time -/
theorem run_of_first_repeated (p : Pipeline) (s : Session) {artifacts : List Artifact}
    (hids : ¬(artifacts.map Artifact.id).Nodup) :
    ∃ before a after, artifacts = before ++ a :: after ∧ (before.map Artifact.id).Nodup ∧
      a.id ∈ before.map Artifact.id ∧ p.run s artifacts = ⟨s, .error (.duplicateArtifact a.id), []⟩ := by
  obtain ⟨before, a, after, hsplit, hnodup, hmem, hfirst⟩ := exists_first_repeated Artifact.id hids
  exact ⟨before, a, after, hsplit, hnodup, hmem, by simp only [run, hfirst]⟩

theorem run_of_repeated (read : SourceReader) (config : Config) (s : Session) {artifacts : List Artifact}
    (hids : ¬(artifacts.map Artifact.id).Nodup) :
    ∃ id, (reading read config).run s artifacts = ⟨s, .error (.duplicateArtifact id), []⟩ := by
  obtain ⟨-, a, -, -, -, -, hrun⟩ := run_of_first_repeated (reading read config) s hids
  exact ⟨a.id, hrun⟩

/-- a run that returns had artifacts of different names -/
theorem nodup_of_run_ok {s : Session} {artifacts : List Artifact} {g : Generation}
    (hg : ((reading read config).run s artifacts).outcome = .ok g) : (artifacts.map Artifact.id).Nodup := by
  by_contra hids
  obtain ⟨id, hrun⟩ := run_of_repeated read config s hids
  rw [hrun] at hg
  cases hg

section Course

variable {s : Session} {artifacts : List Artifact} {es : List Extraction} {ds : List Diagnostic}

/-- contexts of what artifacts yield, with their artifacts -/
theorem map_artifact_sublist (h : List.Forall₂ (Yields read config U) artifacts es) :
    ((es.filterMap Extraction.context).map Context.artifact).Sublist (artifacts.map Artifact.id) := by
  induction h with
  | nil => exact .slnil
  | @cons a e rest es hyields _ ih =>
    rw [List.map_cons, List.filterMap_cons]
    cases hc : e.context with
    | none => exact ih.cons _
    | some c =>
      have hid : c.artifact = a.id := (e.context_artifact c hc).trans hyields.fits.artifact
      rw [List.map_cons, hid]
      exact ih.cons_cons _

theorem nodup_live (h : List.Forall₂ (Yields read config U) artifacts es) (hids : (artifacts.map Artifact.id).Nodup) :
    ((es.filterMap Extraction.context).map Context.artifact).Nodup := (map_artifact_sublist h).nodup hids

/-- a context that is live was extracted from an artifact with `U` -/
theorem extracted_of_live (h : List.Forall₂ (Yields read config U) artifacts es) {c : Context}
    (hc : c ∈ es.filterMap Extraction.context) : ∃ b e, U b ∧ extract read config b = .ok e ∧ c ∈ e.context := by
  induction h with
  | nil => cases hc
  | @cons a e rest es hyields _ ih =>
    obtain ⟨e', he', hce⟩ := List.mem_filterMap.1 hc
    rcases List.mem_cons.1 he' with rfl | he'
    · cases hyields with
      | scanned b hb _ _ he => exact ⟨b, _, hb, he, hce⟩
      | failed f _ hbarren =>
        rw [hbarren.context] at hce
        cases hce
    · exact ih (List.mem_filterMap.2 ⟨e', he', hce⟩)

theorem ofSource_of_yields (h : List.Forall₂ (Yields read config U) artifacts es) {e : Extraction} (he : e ∈ es) :
    ∀ d ∈ e.diagnostics, d.OfSource := by
  induction h with
  | nil => cases he
  | cons hyields _ ih =>
    rcases List.mem_cons.1 he with rfl | he
    · exact hyields.fits.ofSource
    · exact ih he

theorem Course.from_session (hcourse : Course read config U s artifacts es ds) (h : From read config U s) :
    From read config U ((reading read config).run s artifacts).session := by
  refine ⟨hcourse.session ▸ hcourse.kept, fun c hc => ?_⟩
  rw [hcourse.registry] at hc
  rcases Registry.mem_of_mem_snapshot_storeAll hc with hc | hc
  · exact extracted_of_live hcourse.yields hc
  · exact h.registered c hc

/-- A run keeps `From`, whether it halts or not. -/
theorem From.run (h : From read config U s) (hU : ∀ a ∈ artifacts, U a) :
    From read config U ((reading read config).run s artifacts).session := by
  by_cases hids : (artifacts.map Artifact.id).Nodup
  · obtain ⟨es, ds, hcourse⟩ := run_course h hU hids
    exact hcourse.from_session h
  · obtain ⟨id, hrun⟩ := run_of_repeated read config s hids
    rw [hrun]
    exact h

end Course

end Runs

/-! ## Histories -/

/-- what is asked of a pipeline -/
inductive Call where
  | run (artifacts : List Artifact)
  | runPaths (files : FileTree) (paths : List Path)
  | reset

def Call.artifacts : Call → List Artifact
  | .run artifacts => artifacts
  | .runPaths files paths => (readAll files paths).artifacts
  | .reset => []

def after (p : Pipeline) (s : Session) : Call → Session
  | .run artifacts => (p.run s artifacts).session
  | .runPaths files paths => (p.runPaths s files paths).session
  | .reset => p.reset s

/-- the session after some calls, fresh at first -/
def history (p : Pipeline) (calls : List Call) : Session := calls.foldl p.after .fresh

/-- the run on artifacts after some calls -/
def runAfter (p : Pipeline) (calls : List Call) (artifacts : List Artifact) : Step Generation :=
  p.run (p.history calls) artifacts

/-- the contexts that this run extracts -/
def liveAfter (p : Pipeline) (calls : List Call) (artifacts : List Artifact) : List Context :=
  p.live (p.history calls) artifacts

section History

variable {read : SourceReader} {config : Config} {U : Artifact → Prop}

theorem From.after {s : Session} (h : From read config U s) (call : Call) (hU : ∀ a ∈ call.artifacts, U a) :
    From read config U ((reading read config).after s call) := by
  cases call with
  | run artifacts => exact h.run hU
  | runPaths files paths =>
    simp only [Pipeline.after, runPaths]
    split
    · exact h
    · exact h.run hU
  | reset => exact ⟨kept_empty, fun _ hc => nomatch hc⟩

/-- **Histories.** Whatever a pipeline was asked, it keeps what it extracted from the artifacts that it was asked about. -/
theorem from_history (calls : List Call) (hU : ∀ call ∈ calls, ∀ a ∈ call.artifacts, U a) :
    From read config U (history (reading read config) calls) := by
  suffices hrun : ∀ s, From read config U s → From read config U (calls.foldl (reading read config).after s) from
    hrun _ from_fresh
  induction calls with
  | nil => exact fun s h => h
  | cons call rest ih =>
    intro s h
    exact ih (fun x hx => hU x (List.mem_cons_of_mem _ hx)) _ (h.after call (hU call List.mem_cons_self))

/-- the session after some calls, over whatever registry -/
def historyOver (p : Pipeline) (calls : List Call) (registry : Registry) : Session :=
  { p.history calls with registry := registry }

theorem kept_historyOver (read : SourceReader) (config : Config) (calls : List Call) (registry : Registry) :
    Kept read config (fun _ => True) ((reading read config).historyOver calls registry).cache :=
  (from_history calls fun _ _ _ _ => trivial).kept

end History

namespace Sample

/-- the pipeline that reads outlines, as configured by default -/
def outlining : Pipeline := reading (.ofText Cache.Sample.outlined) .standard

end Sample

end SignalWiring.Pipeline
