/-
Runs that are repeated, and pipelines that start over.

A run repeated at once finds in the cache what it has extracted before, and extracts afresh what could not be kept. Either
way it has of every artifact what the first run had (`yield_extractAll`), and stores it where it is already
(`Registry.storeAll_storeAll`). So both runs emit the same contexts from the same registry.

After a reset nothing is left of the calls before, neither in the registry nor in the cache, so that the calls after it are
answered as by a pipeline that was just built (`history_reset`).

- `run_run`: a run and its repetition, from any session.
- `rerun_and_reset`: repetition and reset after any history.
-/
import SignalWiring.Proofs.Answers

namespace SignalWiring

theorem Registry.eq_of_contexts {r r' : Registry} (h : r.contexts = r'.contexts) : r = r' := by
  obtain ⟨contexts, keyed⟩ := r
  obtain ⟨contexts', keyed'⟩ := r'
  obtain rfl : contexts = contexts' := h
  rfl

/-- Contexts that are stored a second time change nothing. -/
theorem Registry.storeAll_storeAll (r : Registry) (live : List Context) :
    (r.storeAll live).storeAll live = r.storeAll live := by
  apply eq_of_contexts
  rw [contexts_storeAll, contexts_storeAll, Ledger.putAll_putAll]

theorem Cache.lookup_keep_self {c : Cache} {a : Artifact} {e : Extraction} : (c.keep a e).lookup a = some e := by
  simp only [lookup, keep, Ledger.get?_put_self, if_true]

/-- An answer is the same when the artifact is extracted a second time. -/
theorem Cache.outcome_extract_self (inner : Extractor) (c : Cache) (a : Artifact) :
    ((c.extract inner a).1.extract inner a).2.outcome = (c.extract inner a).2.outcome := by
  cases hlook : c.lookup a with
  | some e =>
    have hkept : (c.extract inner a).1.lookup a = some e := by
      rw [extract_of_lookup_some hlook]
      exact hlook
    rw [extract_of_lookup_some hkept, extract_of_lookup_some hlook]
  | none =>
    obtain ⟨hanswer, hok, herror⟩ := extract_of_lookup_none inner hlook
    cases hout : (inner a).outcome with
    | ok e => rw [hok e hout, extract_of_lookup_some lookup_keep_self, hanswer, hout]
    | error f => rw [herror f hout]

namespace Pipeline

/-! ## Extracting again -/

section Extraction

variable {p : Pipeline} {s : Session} {c : Cache} {a : Artifact} {artifacts : List Artifact}

/-- what becomes of an extraction depends on its outcome alone -/
theorem outcome_absorb_congr {x y : Scanned} (h : x.outcome = y.outcome) :
    (absorb a x).outcome = (absorb a y).outcome := by
  unfold absorb
  rw [h]
  split
  · exact h
  · rfl
  · split
    · rfl
    · exact h

theorem yield_extractOne_self (p : Pipeline) (s : Session) (a : Artifact) :
    p.yield { s with cache := (p.extractOne s.cache a).1 } a = p.yield s a := by
  unfold yield
  apply outcome_absorb_congr
  unfold answer extractOne
  split
  · exact Cache.outcome_extract_self p.extractor s.cache a
  · rfl

theorem lookup_extractAll_of_not_mem (h : a.id ∉ artifacts.map Artifact.id) :
    (p.extractAll c artifacts).1.lookup a = c.lookup a := by
  induction artifacts generalizing c with
  | nil => rfl
  | cons b rest ih =>
    rw [List.map_cons, List.mem_cons, not_or] at h
    have hone : (p.extractOne c b).1.lookup a = c.lookup a := lookup_extractOne_of_ne h.1
    simp only [extractAll]
    split
    · exact hone
    · exact (ih h.2).trans hone

/-- **Extracting again.** What a run has extracted, and what it failed to extract, is the same from the cache that it
leaves, even where it was stopped before it came to the artifact. -/
theorem yield_extractAll (hids : (artifacts.map Artifact.id).Nodup) (ha : a ∈ artifacts) :
    p.yield { s with cache := (p.extractAll s.cache artifacts).1 } a = p.yield s a := by
  induction artifacts generalizing s with
  | nil => cases ha
  | cons b rest ih =>
    rw [List.map_cons, List.nodup_cons] at hids
    -- what the first extraction leaves is already as good as what was there
    have hone : p.yield { s with cache := (p.extractOne s.cache b).1 } a = p.yield s a := by
      by_cases hab : a.id = b.id
      · have hnot : a ∉ rest := fun hrest => hids.1 (hab ▸ List.mem_map_of_mem hrest)
        obtain rfl : a = b := (List.mem_cons.1 ha).resolve_right hnot
        exact yield_extractOne_self p s a
      · exact yield_congr (lookup_extractOne_of_ne hab)
    simp only [extractAll]
    split
    · exact hone
    · refine Eq.trans ?_ hone
      rcases List.mem_cons.1 ha with rfl | hrest
      · exact yield_congr (lookup_extractAll_of_not_mem hids.1)
      · exact ih (s := { s with cache := (p.extractOne s.cache b).1 }) hids.2 hrest

theorem extractAll_extractAll (hids : (artifacts.map Artifact.id).Nodup) :
    (p.extractAll (p.extractAll c artifacts).1 artifacts).2.1 = (p.extractAll c artifacts).2.1 := by
  have hbefore := extractAll_eq_mapM (p := p) (s := ⟨.empty, c⟩) hids
  have hafter := extractAll_eq_mapM (p := p) (s := ⟨.empty, (p.extractAll c artifacts).1⟩) hids
  rw [hbefore, hafter]
  exact mapM_congr fun a ha => yield_extractAll (s := ⟨.empty, c⟩) hids ha

end Extraction

/-! ## Running again -/

theorem run_of_extractAll_error {p : Pipeline} {s : Session} {artifacts : List Artifact} {after : Cache} {f : Fault}
    {records : List Log.Record} (hids : (artifacts.map Artifact.id).Nodup)
    (hall : p.extractAll s.cache artifacts = (after, .error f, records)) :
    p.run s artifacts = ⟨{ s with cache := after }, .error f, records⟩ := by
  have hfirst : firstRepeated [] (artifacts.map Artifact.id) = none :=
    firstRepeated_eq_none_iff.2 ⟨hids, fun _ _ hn => nomatch hn⟩
  simp only [run, hfirst, hall]

/-- **Running again.** A run that is repeated at once ends as before, and leaves the registry as it was. -/
theorem run_run (p : Pipeline) (s : Session) (artifacts : List Artifact) :
    (p.run (p.run s artifacts).session artifacts).outcome = (p.run s artifacts).outcome ∧
    (p.run (p.run s artifacts).session artifacts).session.registry = (p.run s artifacts).session.registry := by
  by_cases hids : (artifacts.map Artifact.id).Nodup
  · have hsame := extractAll_extractAll (p := p) (c := s.cache) hids
    rcases hfirst : p.extractAll s.cache artifacts with ⟨after, extracted, records⟩
    rw [hfirst] at hsame
    rcases hsecond : p.extractAll after artifacts with ⟨after', extracted', records'⟩
    rw [hsecond] at hsame
    obtain rfl : extracted' = extracted := hsame
    cases extracted' with
    | error f =>
      rw [run_of_extractAll_error hids hfirst]
      have hagain := run_of_extractAll_error (s := { s with cache := after }) hids hsecond
      rw [hagain]
      exact ⟨rfl, rfl⟩
    | ok es =>
      obtain ⟨hsession, notices, hnotices, houtcome⟩ := run_of_extractAll hids hfirst
      rw [hsession, houtcome]
      obtain ⟨hsession', notices', hnotices', houtcome'⟩ :=
        run_of_extractAll (s := ⟨s.registry.storeAll (es.filterMap Extraction.context), after⟩) hids hsecond
      rw [Registry.storeAll_storeAll] at hsession' hnotices' houtcome'
      obtain rfl : notices = notices' := Except.ok.inj (hnotices.symm.trans hnotices')
      exact ⟨houtcome', by rw [hsession']⟩
  · obtain ⟨-, a, -, -, -, -, hrun⟩ := run_of_first_repeated p s hids
    rw [hrun]
    exact ⟨congrArg Step.outcome hrun, congrArg (Session.registry ∘ Step.session) hrun⟩

/-! ## Starting over -/

section Reset

variable {p : Pipeline} {s : Session}

/-- without a cache nothing is kept -/
theorem cache_extractAll_of_uncached (h : p.cached = false) (c : Cache) (artifacts : List Artifact) :
    (p.extractAll c artifacts).1 = c := by
  induction artifacts generalizing c with
  | nil => rfl
  | cons a rest ih =>
    have hone : (p.extractOne c a).1 = c := by simp only [extractOne, h, Bool.false_eq_true, if_false]
    simp only [extractAll, hone]
    split
    · rfl
    · exact ih c

theorem cache_run_of_uncached (h : p.cached = false) (artifacts : List Artifact) :
    (p.run s artifacts).session.cache = s.cache := by
  by_cases hids : (artifacts.map Artifact.id).Nodup
  · have hcache := cache_extractAll_of_uncached h s.cache artifacts
    rcases hall : p.extractAll s.cache artifacts with ⟨after, f | es, records⟩
    · rw [hall] at hcache
      rw [run_of_extractAll_error hids hall]
      exact hcache
    · rw [hall] at hcache
      rw [(run_of_extractAll hids hall).1]
      exact hcache
  · obtain ⟨-, a, -, -, -, -, hrun⟩ := run_of_first_repeated p s hids
    rw [hrun]

theorem cache_after_of_uncached (h : p.cached = false) (call : Call) : (p.after s call).cache = s.cache := by
  cases call with
  | run artifacts => exact cache_run_of_uncached h artifacts
  | runPaths files paths =>
    simp only [after, runPaths]
    split
    · rfl
    · exact cache_run_of_uncached h _
  | reset => simp only [after, reset, h, Bool.false_eq_true, if_false]

theorem cache_history_of_uncached (h : p.cached = false) (calls : List Call) : (p.history calls).cache = .empty := by
  suffices hcalls : ∀ s : Session, (calls.foldl p.after s).cache = s.cache from hcalls .fresh
  induction calls with
  | nil => exact fun s => rfl
  | cons call rest ih => exact fun s => (ih (p.after s call)).trans (cache_after_of_uncached h call)

/-- **Starting over.** A reset leaves nothing of the calls before it. -/
theorem history_reset (p : Pipeline) (calls later : List Call) :
    p.history (calls ++ .reset :: later) = p.history later := by
  have hfresh : p.reset (p.history calls) = .fresh := by
    unfold reset
    split
    · rfl
    · rename_i huncached
      rw [cache_history_of_uncached (Bool.not_eq_true _ ▸ huncached)]
      rfl
  rw [history, List.foldl_append, List.foldl_cons]
  change later.foldl p.after (p.reset (p.history calls)) = _
  rw [hfresh]
  rfl

end Reset

/-- **Repetition and reset.** After any history, a run that is repeated at once ends as before, with the same fragments,
diagnostics and table or with the same fault, and leaves the registry as it was. And once a pipeline is reset, it does in
every run, whatever else is asked of it before, all that a pipeline does that was just built. -/
theorem rerun_and_reset (p : Pipeline) (calls : List Call) (artifacts : List Artifact) :
    ((p.run (p.runAfter calls artifacts).session artifacts).outcome = (p.runAfter calls artifacts).outcome ∧
      (p.run (p.runAfter calls artifacts).session artifacts).session.registry =
        (p.runAfter calls artifacts).session.registry) ∧
    ∀ later, p.runAfter (calls ++ .reset :: later) artifacts = p.runAfter later artifacts := by
  refine ⟨run_run p (p.history calls) artifacts, fun later => ?_⟩
  rw [runAfter, history_reset, runAfter]

end Pipeline

end SignalWiring
