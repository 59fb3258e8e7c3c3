/-
What a registry holds after any calls.

The log of some calls are the contexts that they have stored since the last reset, in order. A registry reflects its log:
an artifact stands where it came first, with the context that came last. Of a call that is rejected nothing is in the log.

`Program` has the same calls statement by statement, over a map that knows nothing of artifacts: where a program stops,
what it has written stays written. So it is a fact about the order of checks and writes that a rejected call has written
nothing, and one about the keys it writes to that every context is filed under its own artifact.

- `Call.cases`: a call resets the registry, is rejected, or stores contexts.
- `Program.runOn_of_rejected`, `Program.runOn_of_stores`: what its program does then; `Program.runOn_upsertAll`: a batch
  is stored like its contexts one by one.
- `Reflects.store`, `reflects_after`: what storing one context does to a registry that reflects a log, and what calls do.
- `calls_reflected`: all of it together, after any calls.
-/
import SignalWiring.Proofs.Registry

namespace SignalWiring.Registry

/-! ## Calls -/

/-- a call that changes a registry -/
inductive Call where
  | upsert (artifact : String) (context : Option Context)
  | upsertAll (batch : List (Option Context))
  | reset

namespace Call

/-- the call is rejected, with this fault -/
inductive Rejected : Call → Fault → Prop where
  | missing (artifact : String) : Rejected (.upsert artifact none) (.absent "context must not be None")
  | unnamed (c : Context) : Rejected (.upsert "" (some c)) (.rejected "" "artifact_id must not be empty")
  | foreign (artifact : String) (c : Context) (named : artifact ≠ "") (other : c.artifact ≠ artifact) :
      Rejected (.upsert artifact (some c)) (.rejected artifact s!"context belongs to '{c.artifact}'")
  | incomplete (batch : List (Option Context)) (absent : none ∈ batch) :
      Rejected (.upsertAll batch) (.absent "context must not be None")

/-- the call stores these contexts, in this order -/
inductive Stores : Call → List Context → Prop where
  | one (c : Context) : Stores (.upsert c.artifact (some c)) [c]
  | all (cs : List Context) : Stores (.upsertAll (cs.map some)) cs

theorem exists_contexts {batch : List (Option Context)} (h : none ∉ batch) :
    ∃ cs : List Context, batch = cs.map some := by
  induction batch with
  | nil => exact ⟨[], rfl⟩
  | cons context rest ih =>
    rw [List.mem_cons, not_or] at h
    obtain ⟨cs, rfl⟩ := ih h.2
    obtain ⟨c, rfl⟩ := Option.ne_none_iff_exists'.1 (Ne.symm h.1)
    exact ⟨c :: cs, rfl⟩

protected theorem cases (call : Call) : call = .reset ∨ (∃ fault, call.Rejected fault) ∨ ∃ cs, call.Stores cs := by
  cases call with
  | reset => exact Or.inl rfl
  | upsert artifact context =>
    refine Or.inr ?_
    cases context with
    | none => exact Or.inl ⟨_, .missing artifact⟩
    | some c =>
      by_cases hsame : c.artifact = artifact
      · subst hsame
        exact Or.inr ⟨_, .one c⟩
      · by_cases hempty : artifact = ""
        · subst hempty
          exact Or.inl ⟨_, .unnamed c⟩
        · exact Or.inl ⟨_, .foreign artifact c hempty hsame⟩
  | upsertAll batch =>
    refine Or.inr ?_
    by_cases hmissing : none ∈ batch
    · exact Or.inl ⟨_, .incomplete batch hmissing⟩
    · obtain ⟨cs, rfl⟩ := exists_contexts hmissing
      exact Or.inr ⟨cs, .all cs⟩

/-- the registry after a call, or why the call is rejected -/
def outcome (r : Registry) : Call → Except Fault Registry
  | .upsert artifact context => r.upsert artifact context
  | .upsertAll batch => r.upsertAll batch
  | .reset => .ok .empty

end Call

/-- the registry after a call; it stays what it was when the call is rejected -/
def step (r : Registry) (call : Call) : Registry :=
  match call.outcome r with
  | .ok changed => changed
  | .error _ => r

/-- the registry after some calls, empty at first -/
def after (calls : List Call) : Registry := calls.foldl step .empty

/-- the log after one more call -/
def record (log : List Context) : Call → List Context
  | .upsert artifact context => log ++ context.toList.filter fun c => c.artifact = artifact
  | .upsertAll batch => if none ∈ batch then log else log ++ batch.reduceOption
  | .reset => []

/-- the contexts that some calls have stored since the last reset -/
def log (calls : List Call) : List Context := calls.foldl record []

theorem present_map_some (cs : List Context) : present (cs.map some) = .ok cs := by
  induction cs with
  | nil => rfl
  | cons c rest ih =>
    rw [List.map_cons, present, ih]
    rfl

theorem present_of_missing {batch : List (Option Context)} (h : none ∈ batch) :
    present batch = .error (.absent "context must not be None") := by
  induction batch with
  | nil => cases h
  | cons context rest ih =>
    cases context with
    | none => rfl
    | some c =>
      have hrest : none ∈ rest := (List.mem_cons.1 h).resolve_left fun heq => nomatch heq
      rw [present, ih hrest]
      rfl

section Outcome

variable {r : Registry} {call : Call} {fault : Fault} {cs log : List Context}

theorem outcome_of_rejected (h : call.Rejected fault) : call.outcome r = .error fault := by
  cases h with
  | missing artifact => rfl
  | unnamed c => rfl
  | foreign artifact c named other => simp only [Call.outcome, upsert, if_neg named, if_pos other]
  | incomplete batch absent => rw [Call.outcome, upsertAll, present_of_missing absent]; rfl

theorem outcome_of_stores (h : call.Stores cs) : call.outcome r = .ok (r.storeAll cs) := by
  cases h with
  | one c =>
    simp only [Call.outcome, upsert, if_neg c.artifact_ne, ne_eq, not_true_eq_false, if_false]
    rfl
  | all cs => rw [Call.outcome, upsertAll, present_map_some]; rfl

theorem record_of_rejected (h : call.Rejected fault) : record log call = log := by
  cases h with
  | missing artifact => exact List.append_nil log
  | unnamed c => simp [record, c.artifact_ne]
  | foreign artifact c named other => simp [record, other]
  | incomplete batch absent => rw [record, if_pos absent]

theorem record_of_stores (h : call.Stores cs) : record log call = log ++ cs := by
  cases h with
  | one c => simp [record]
  | all cs =>
    have hall : (cs.map some).reduceOption = cs := by
      change (cs.map some).filterMap id = cs
      rw [List.filterMap_map]
      exact List.filterMap_some
    rw [record, if_neg (by simp), hall]

theorem step_of_rejected (h : call.Rejected fault) : r.step call = r := by
  simp only [step, outcome_of_rejected h]

theorem step_of_stores (h : call.Stores cs) : r.step call = r.storeAll cs := by
  simp only [step, outcome_of_stores h]

end Outcome

/-! ## Statement by statement -/

/-- statements over a map of contexts, which may stop with a fault; what they have written by then stays written -/
abbrev Program := ExceptT Fault (StateM (Ledger String Context))

namespace Program

/-- what a program ends with, and the map that it leaves -/
def runOn (p : Program Unit) (m : Ledger String Context) : Except Fault Unit × Ledger String Context := p.run.run m

def require : Option Context → Program Context
  | none => throw (.absent "context must not be None")
  | some c => pure c

def write (key : String) (c : Context) : Program Unit := modify fun m => m.put key c

/-- check what is given, then write -/
def upsert (artifact : String) (context : Option Context) : Program Unit := do
  let c ← require context
  if artifact = "" then throw (.rejected artifact "artifact_id must not be empty")
  if c.artifact ≠ artifact then throw (.rejected artifact s!"context belongs to '{c.artifact}'")
  write artifact c

/-- check every context, then write them one by one -/
def upsertAll (batch : List (Option Context)) : Program Unit := do
  let cs ← batch.mapM require
  cs.forM fun c => write c.artifact c

def ofCall : Call → Program Unit
  | .upsert artifact context => upsert artifact context
  | .upsertAll batch => upsertAll batch
  | .reset => set (Ledger.empty : Ledger String Context)

/-- the map after some calls, empty at first; a call that is rejected does not keep the others from being made -/
def runAll (calls : List Call) : Ledger String Context :=
  calls.foldl (fun m call => ((ofCall call).runOn m).2) .empty

variable {m : Ledger String Context}

theorem runOn_forM_write (cs : List Context) :
    runOn (cs.forM fun c => write c.artifact c) m = (.ok (), m.putAll (keyedBy cs)) := by
  induction cs generalizing m with
  | nil => rfl
  | cons c rest ih => exact ih (m := m.put c.artifact c)

theorem run_mapM_require (cs : List Context) : ((cs.map some).mapM require).run.run m = (.ok cs, m) := by
  induction cs with
  | nil => rfl
  | cons c rest ih =>
    rw [List.map_cons, List.mapM_cons]
    change ((rest.map some).mapM require >>= fun found => pure (c :: found)).run.run m = _
    rw [ExceptT.run_bind, StateT.run_bind, ih]
    rfl

theorem run_mapM_require_of_missing {batch : List (Option Context)} (h : none ∈ batch) :
    (batch.mapM require).run.run m = (.error (.absent "context must not be None"), m) := by
  induction batch with
  | nil => cases h
  | cons context rest ih =>
    rw [List.mapM_cons]
    cases context with
    | none => rfl
    | some c =>
      have hrest : none ∈ rest := (List.mem_cons.1 h).resolve_left fun heq => nomatch heq
      change (rest.mapM require >>= fun found => pure (c :: found)).run.run m = _
      rw [ExceptT.run_bind, StateT.run_bind, ih hrest]
      rfl

/-- **Rejected calls.** A program that stops has written nothing. -/
theorem runOn_of_rejected {call : Call} {fault : Fault} (h : call.Rejected fault) :
    (ofCall call).runOn m = (.error fault, m) := by
  cases h with
  | missing artifact => rfl
  | unnamed c => rfl
  | foreign artifact c named other =>
    simp only [ofCall, upsert, require, pure_bind, if_neg named, if_pos other]
    rfl
  | incomplete batch absent =>
    rw [ofCall, upsertAll, runOn, ExceptT.run_bind, StateT.run_bind, run_mapM_require_of_missing absent]
    rfl

theorem upsert_self (c : Context) : upsert c.artifact (some c) = write c.artifact c := by
  simp only [upsert, require, pure_bind, if_neg c.artifact_ne, ne_eq, not_true_eq_false, if_false]

/-- **Stored contexts.** Any other program but a reset writes its contexts under their artifacts, and ends. -/
theorem runOn_of_stores {call : Call} {cs : List Context} (h : call.Stores cs) :
    (ofCall call).runOn m = (.ok (), m.putAll (keyedBy cs)) := by
  cases h with
  | one c =>
    rw [ofCall, upsert_self]
    rfl
  | all cs =>
    rw [ofCall, upsertAll, runOn, ExceptT.run_bind, StateT.run_bind, run_mapM_require]
    exact runOn_forM_write cs

/-- A batch is stored like its contexts one by one. -/
theorem runOn_upsertAll (cs : List Context) :
    (upsertAll (cs.map some)).runOn m = runOn (cs.forM fun c => upsert c.artifact (some c)) m := by
  have heach : (fun c : Context => upsert c.artifact (some c)) = fun c => write c.artifact c := funext upsert_self
  rw [heach, runOn_forM_write]
  exact runOn_of_stores (.all cs)

/-- The programs leave the map of the registry. -/
theorem runAll_eq (calls : List Call) : runAll calls = (after calls).contexts := by
  suffices hrun : ∀ r : Registry, calls.foldl (fun m call => ((ofCall call).runOn m).2) r.contexts =
      (calls.foldl step r).contexts from hrun .empty
  induction calls with
  | nil => exact fun r => rfl
  | cons call rest ih =>
    intro r
    have hone : ((ofCall call).runOn r.contexts).2 = (r.step call).contexts := by
      rcases call.cases with rfl | ⟨fault, hfault⟩ | ⟨cs, hcs⟩
      · rfl
      · rw [runOn_of_rejected hfault, step_of_rejected hfault]
      · rw [runOn_of_stores hcs, step_of_stores hcs, contexts_storeAll]
    rw [List.foldl_cons, List.foldl_cons, hone]
    exact ih _

end Program

/-! ## Reflecting a log -/

/-- the last context of an artifact in a log -/
def latest (log : List Context) (artifact : String) : Option Context :=
  (log.filter fun c => c.artifact = artifact).getLast?

/-- the registry is what is left of its log -/
structure Reflects (log : List Context) (r : Registry) : Prop where
  /-- each artifact stands where it came first -/
  artifacts : r.artifacts = (log.map Context.artifact).eraseDups
  /-- and has one entry -/
  distinct : r.artifacts.Nodup
  /-- under each artifact there is the context that came last -/
  snapshot : r.snapshot.map some = r.artifacts.map (latest log)
  /-- which is its own -/
  keyed : r.snapshot.map Context.artifact = r.artifacts
  /-- the other queries say the same -/
  get : ∀ artifact, r.get? artifact = latest log artifact
  has : ∀ artifact, r.has artifact = true ↔ artifact ∈ r.artifacts
  size : r.size = r.artifacts.length
  stale : ∀ live, r.stale live = r.artifacts.filter fun artifact => artifact ∉ live

theorem eraseDups_concat (names : List String) (n : String) :
    (names ++ [n]).eraseDups = if n ∈ names then names.eraseDups else names.eraseDups ++ [n] := by
  rw [List.eraseDups_append]
  by_cases h : n ∈ names
  · rw [if_pos h]
    simp [List.removeAll, h]
  · rw [if_neg h]
    simp [List.removeAll, h, List.eraseDups_cons]

section Reflects

variable {r : Registry} {log : List Context}

/-- what there is to say about a registry follows from its artifacts and its look-ups -/
theorem reflects_of (hartifacts : r.artifacts = (log.map Context.artifact).eraseDups)
    (hget : ∀ artifact, r.get? artifact = latest log artifact) : Reflects log r := by
  refine ⟨hartifacts, r.contexts.keys_nodup, ?_, artifacts_eq.symm, hget, fun artifact => Ledger.has_iff, ?_,
    fun live => ?_⟩
  · rw [artifacts_eq, List.map_map]
    refine List.map_congr_left fun c hc => ?_
    rw [Function.comp_apply, ← hget]
    exact (Ledger.get?_eq_some_iff.2 (mem_snapshot.1 hc)).symm
  · simp [Registry.size, Registry.artifacts, Ledger.size, Ledger.keys]
  · rw [Registry.stale]
    exact List.filter_congr fun artifact _ => by rw [List.contains_eq_mem, decide_not]

theorem reflects_empty : Reflects [] .empty := reflects_of rfl fun _ => rfl

/-- **One context.** What is stored comes last in the log; it stands where its artifact stood, if that was there. -/
theorem Reflects.store (h : Reflects log r) (c : Context) : Reflects (log ++ [c]) (r.store c) := by
  refine reflects_of ?_ fun artifact => ?_
  · have hkeys : (r.store c).artifacts =
        if c.artifact ∈ r.artifacts then r.artifacts else r.artifacts ++ [c.artifact] :=
      Ledger.keys_put r.contexts c.artifact c
    rw [hkeys, List.map_append, List.map_singleton, eraseDups_concat, h.artifacts]
    simp only [List.mem_eraseDups]
  · rw [latest, List.filter_append]
    by_cases hsame : artifact = c.artifact
    · subst hsame
      rw [List.filter_cons_of_pos (by simp), List.filter_nil, List.getLast?_concat]
      exact Ledger.get?_put_self _ _ _
    · rw [List.filter_cons_of_neg (by simpa using Ne.symm hsame), List.filter_nil, List.append_nil, ← latest, ← h.get]
      exact Ledger.get?_put_of_ne _ _ hsame

theorem Reflects.storeAll (h : Reflects log r) (cs : List Context) : Reflects (log ++ cs) (r.storeAll cs) := by
  induction cs generalizing log r with
  | nil =>
    rw [List.append_nil]
    exact h
  | cons c rest ih =>
    rw [List.append_cons]
    exact ih (h.store c)

/-- Every call keeps the registry in step with its log. -/
theorem Reflects.step (h : Reflects log r) (call : Call) : Reflects (record log call) (r.step call) := by
  rcases call.cases with rfl | ⟨fault, hfault⟩ | ⟨cs, hcs⟩
  · exact reflects_empty
  · rw [record_of_rejected hfault, step_of_rejected hfault]
    exact h
  · rw [record_of_stores hcs, step_of_stores hcs]
    exact h.storeAll cs

end Reflects

/-- **Histories.** After any calls the registry reflects their log. -/
theorem reflects_after (calls : List Call) : Reflects (log calls) (after calls) := by
  suffices hrun : ∀ written r, Reflects written r →
      Reflects (calls.foldl record written) (calls.foldl step r) from hrun [] .empty reflects_empty
  induction calls with
  | nil => exact fun _ _ h => h
  | cons call rest ih =>
    intro written r h
    exact ih _ _ (h.step call)

/-- **What a registry holds.** After any calls, accepted or rejected, a registry reflects the log of what they have stored
since the last reset, and so does the map that the calls leave statement by statement. One more call stops with a fault
exactly when it is rejected, and then it leaves everything as it was. A batch is stored like its contexts one by one. -/
theorem calls_reflected (calls : List Call) :
    Reflects (log calls) (after calls) ∧ Program.runAll calls = (after calls).contexts ∧
    (∀ call fault m, (Program.ofCall call).runOn (after calls).contexts = (.error fault, m) ↔
      call.Rejected fault ∧ m = (after calls).contexts) ∧
    ∀ (cs : List Context) m, (Program.ofCall (.upsertAll (cs.map some))).runOn m =
      Program.runOn (cs.forM fun c => Program.ofCall (.upsert c.artifact (some c))) m := by
  refine ⟨reflects_after calls, Program.runAll_eq calls, fun call fault m => ?_,
    fun cs m => Program.runOn_upsertAll cs⟩
  constructor
  · intro hrun
    rcases call.cases with rfl | ⟨other, hother⟩ | ⟨cs, hcs⟩
    · cases hrun
    · rw [Program.runOn_of_rejected hother] at hrun
      cases hrun
      exact ⟨hother, rfl⟩
    · rw [Program.runOn_of_stores hcs] at hrun
      cases hrun
  · rintro ⟨hrejected, rfl⟩
    exact Program.runOn_of_rejected hrejected

end SignalWiring.Registry
