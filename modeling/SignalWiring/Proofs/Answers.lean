/-
What a run has of its artifacts, each taken by itself.

A run extracts its artifacts one after the other and hands the cache on. Artifacts of different names do not get into each
other's way: what is kept of one is not touched by the extraction of another. So a run has of each artifact what it would
have of it alone.

- `extractAll_eq_mapM`: the extractions of a run are those of its artifacts taken one by one.
- `run_of_extracts`: what a run does with them, for every extractor.
- `exists_extracts`: a pipeline that reads its artifacts has an extraction of each, after any history.
- `exists_yield_of_barren`: what is left of an artifact that yields no context.
-/
import SignalWiring.Proofs.Session

namespace SignalWiring

/-! ## One artifact does not touch another -/

namespace Cache

variable {inner : Extractor} {c c' : Cache} {a b : Artifact}

theorem lookup_keep_of_ne {e : Extraction} (h : b.id ≠ a.id) : (c.keep a e).lookup b = c.lookup b := by
  simp only [lookup, keep, Ledger.get?_put_of_ne _ _ h]

theorem lookup_extract_of_ne (h : b.id ≠ a.id) : (c.extract inner a).1.lookup b = c.lookup b := by
  cases hlook : c.lookup a with
  | some e =>
    rw [extract_of_lookup_some hlook]
    rfl
  | none =>
    obtain ⟨-, hok, herror⟩ := extract_of_lookup_none inner hlook
    cases hout : (inner a).outcome with
    | ok e => rw [hok e hout, lookup_keep_of_ne h]
    | error f => rw [herror f hout]

/-- an answer depends on nothing but what is kept of its artifact -/
theorem extract_congr (h : c.lookup a = c'.lookup a) : (c.extract inner a).2 = (c'.extract inner a).2 := by
  cases hlook : c.lookup a with
  | some e => rw [extract_of_lookup_some hlook, extract_of_lookup_some (h ▸ hlook)]
  | none => rw [(extract_of_lookup_none inner hlook).1, (extract_of_lookup_none inner (h ▸ hlook)).1]

end Cache

namespace Pipeline

/-- what the extractor answers for an artifact in a session, from the cache or afresh -/
def answer (p : Pipeline) (s : Session) (a : Artifact) : Scanned :=
  if p.cached then (s.cache.extract p.extractor a).2 else p.extractor a

/-- what a run from the session has of an artifact -/
def yield (p : Pipeline) (s : Session) (a : Artifact) : Except Fault Extraction := (absorb a (p.answer s a)).outcome

/-- what a run from the session has of its artifacts: one extraction each, in their order -/
def Extracts (p : Pipeline) (s : Session) (artifacts : List Artifact) (es : List Extraction) : Prop :=
  List.Forall₂ (fun a e => p.yield s a = .ok e) artifacts es

section Runs

variable {p : Pipeline} {s s' : Session} {c : Cache} {a b : Artifact} {artifacts : List Artifact} {es : List Extraction}

theorem extractOne_eq (p : Pipeline) (s : Session) (a : Artifact) :
    (p.extractOne s.cache a).2 = absorb a (p.answer s a) := by
  unfold extractOne answer
  split_ifs
  · rfl
  · rfl

theorem lookup_extractOne_of_ne (h : b.id ≠ a.id) : (p.extractOne c a).1.lookup b = c.lookup b := by
  unfold extractOne
  split_ifs
  · exact Cache.lookup_extract_of_ne h
  · rfl

theorem yield_congr (h : s.cache.lookup a = s'.cache.lookup a) : p.yield s a = p.yield s' a := by
  have hanswer : p.answer s a = p.answer s' a := by
    unfold answer
    split_ifs
    · exact Cache.extract_congr h
    · rfl
  rw [yield, yield, hanswer]

/-- **Each by itself.** Artifacts of different names are extracted as if each of them came first, up to the first fault
that stays one. -/
theorem extractAll_eq_mapM (hids : (artifacts.map Artifact.id).Nodup) :
    (p.extractAll s.cache artifacts).2.1 = artifacts.mapM (p.yield s) := by
  induction artifacts generalizing s with
  | nil => rfl
  | cons a rest ih =>
    rw [List.map_cons, List.nodup_cons] at hids
    have hone : (p.extractOne s.cache a).2.outcome = p.yield s a := by
      rw [extractOne_eq]
      rfl
    -- the names differ, so the cache has of the others what it had before
    have hothers : rest.mapM (p.yield { s with cache := (p.extractOne s.cache a).1 }) = rest.mapM (p.yield s) := by
      refine mapM_congr fun b hb => yield_congr ?_
      have hne : b.id ≠ a.id := fun heq => hids.1 (heq ▸ List.mem_map_of_mem hb)
      exact lookup_extractOne_of_ne hne
    have hall := ih (s := { s with cache := (p.extractOne s.cache a).1 }) hids.2
    rw [hothers] at hall
    rw [List.mapM_cons, ← hone]
    cases hout : (p.extractOne s.cache a).2.outcome with
    | error f =>
      simp only [extractAll, hout]
      rfl
    | ok e =>
      simp only [extractAll, hout, hall]
      cases rest.mapM (p.yield s) with
      | error f => rfl
      | ok es => rfl

theorem extractAll_of_extracts (hids : (artifacts.map Artifact.id).Nodup) (h : p.Extracts s artifacts es) :
    (p.extractAll s.cache artifacts).2.1 = .ok es := (extractAll_eq_mapM hids).trans (mapM_of_forall₂ h)

/-! ## What a run does with its extractions -/

/-- the diagnostic `d` is the notice that the registered artifact `id` is not live -/
structure StaleNotice (id : String) (d : Diagnostic) : Prop where
  kind : d.kind = .staleRegistryEntry
  severity : d.severity = .info
  artifact : d.artifact = id

theorem staleNotices_of_mapM {ids : List String} {notices : List Diagnostic}
    (h : ids.mapM staleDiagnostic = .ok notices) : List.Forall₂ StaleNotice ids notices := by
  refine (mapM_eq_ok h).imp fun id d hd => ?_
  unfold staleDiagnostic Diagnostic.make at hd
  split_ifs at hd
  cases hd
  exact ⟨rfl, rfl, rfl⟩

/-- A run stores the contexts of its extractions and emits from the registry. -/
theorem run_of_extracts (hids : (artifacts.map Artifact.id).Nodup) (h : p.Extracts s artifacts es) :
    (p.run s artifacts).session.registry = s.registry.storeAll (es.filterMap Extraction.context) ∧
    ∃ notices,
      ((s.registry.storeAll (es.filterMap Extraction.context)).stale
        ((es.filterMap Extraction.context).map Context.artifact)).mapM staleDiagnostic = .ok notices ∧
      (p.run s artifacts).outcome = p.emit (s.registry.storeAll (es.filterMap Extraction.context))
        (es.filterMap Extraction.context) (es.flatMap Extraction.diagnostics ++ notices) := by
  have hall := extractAll_of_extracts hids h
  rcases hextract : p.extractAll s.cache artifacts with ⟨after, extracted, records⟩
  rw [hextract] at hall
  obtain rfl : extracted = .ok es := hall
  obtain ⟨hsession, hrest⟩ := run_of_extractAll hids hextract
  exact ⟨congrArg Session.registry hsession, hrest⟩

end Runs

/-! ## Artifacts that are read -/

section Reading

variable {read : SourceReader} {config : Config} {U : Artifact → Prop} {s : Session} {a : Artifact}
  {artifacts : List Artifact}

theorem answer_reading (read : SourceReader) (config : Config) (s : Session) (a : Artifact) :
    (reading read config).answer s a = (s.cache.extract (.reading read config) a).2 := rfl

/-- **Every artifact has an extraction.** After any history, a run has one of each of its artifacts. -/
theorem exists_yield (h : From read config U s) (ha : U a) :
    ∃ e, (reading read config).yield s a = .ok e ∧ Yields read config U a e := by
  rw [yield, answer_reading]
  exact h.kept.exists_absorbed ha

theorem exists_extracts (h : From read config U s) (hU : ∀ a ∈ artifacts, U a) :
    ∃ es, (reading read config).Extracts s artifacts es ∧ List.Forall₂ (Yields read config U) artifacts es := by
  induction artifacts with
  | nil => exact ⟨[], .nil, .nil⟩
  | cons a rest ih =>
    obtain ⟨e, he, hyields⟩ := exists_yield h (hU a List.mem_cons_self)
    obtain ⟨es, hes, hall⟩ := ih fun x hx => hU x (List.mem_cons_of_mem _ hx)
    exact ⟨e :: es, .cons he hes, .cons hyields hall⟩

/-! ## Artifacts without a context -/

/-- what is reported of an artifact without a context: nothing when there is no container in it, and one error when its
extraction fails -/
def OwnReport (a : Artifact) : Except Fault Extraction → List Diagnostic → Prop
  | .ok _, own => own = []
  | .error f, own => ∃ d, own = [d] ∧ Tells a f d

theorem exists_yield_of_barren (h : From read config U s) (ha : U a)
    (hnone : ∀ e, ((reading read config).answer s a).outcome = .ok e → e.context = none) :
    ∃ e, (reading read config).yield s a = .ok e ∧ e.context = none ∧
      OwnReport a ((reading read config).answer s a).outcome e.diagnostics := by
  rw [yield]
  rw [answer_reading] at hnone ⊢
  rcases h.kept.extract_cases ha with ⟨b, e, -, -, -, he, hanswer⟩ | ⟨f, hf, hanswer⟩
  · rw [absorb_of_ok hanswer, hanswer]
    exact ⟨e, rfl, hnone e hanswer, extract_without_context he (hnone e hanswer)⟩
  · obtain ⟨e, d, he, -, hcontext, hds, htells⟩ := exists_absorb hanswer (extract_fault hf)
    rw [hanswer]
    exact ⟨e, he, hcontext, d, hds, htells⟩

end Reading

end Pipeline

end SignalWiring
