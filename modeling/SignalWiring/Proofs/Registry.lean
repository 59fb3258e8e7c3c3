/-
What a registry holds after contexts are stored.

- `mem_snapshot_storeAll`: the stored contexts, and those of the other artifacts.
- `snapshot_perm_live`: once every registered artifact is stored again, the snapshot is made of the stored contexts alone,
  whatever the history of the registry. Its order may still be another one.
- `snapshot_storeAll`: stored contexts stand where their artifacts stood, and those of new artifacts at the end.
-/
import SignalWiring.Proofs.Ledger
import SignalWiring.Registry

namespace SignalWiring.Registry

variable {r : Registry} {live : List Context} {c d : Context}

theorem mem_snapshot : c ∈ r.snapshot ↔ (c.artifact, c) ∈ r.contexts.entries := by
  simp only [snapshot, Ledger.values, List.mem_map]
  constructor
  · rintro ⟨⟨id, c'⟩, he, rfl⟩
    have hid : c'.artifact = id := r.keyed _ he
    rw [hid]
    exact he
  · exact fun he => ⟨_, he, rfl⟩

theorem artifacts_eq : r.artifacts = r.snapshot.map Context.artifact := by
  simp only [artifacts, snapshot, Ledger.keys, Ledger.values, List.map_map]
  exact List.map_congr_left fun e he => (r.keyed e he).symm

/-- no two contexts of a snapshot have the same artifact -/
theorem nodup_artifacts (r : Registry) : (r.snapshot.map Context.artifact).Nodup := by
  rw [← artifacts_eq]
  exact r.contexts.keys_nodup

theorem eq_of_mem_snapshot (hc : c ∈ r.snapshot) (hd : d ∈ r.snapshot) (h : c.artifact = d.artifact) : c = d :=
  List.inj_on_of_nodup_map r.nodup_artifacts hc hd h

/-! ## Storing -/

/-- the contexts with their artifacts -/
def keyedBy (live : List Context) : List (String × Context) := live.map fun c => (c.artifact, c)

theorem map_fst_keyedBy (live : List Context) : (keyedBy live).map Prod.fst = live.map Context.artifact := by
  rw [keyedBy, List.map_map]
  rfl

theorem contexts_storeAll (r : Registry) (live : List Context) :
    (r.storeAll live).contexts = r.contexts.putAll (keyedBy live) := by
  induction live generalizing r with
  | nil => rfl
  | cons c rest ih => exact ih (r.store c)

/-- **Storing contexts.** A snapshot has what was stored, and what it had of other artifacts. -/
theorem mem_snapshot_storeAll (h : (live.map Context.artifact).Nodup) :
    c ∈ (r.storeAll live).snapshot ↔ c ∈ live ∨ c ∈ r.snapshot ∧ c.artifact ∉ live.map Context.artifact := by
  rw [← map_fst_keyedBy] at h ⊢
  rw [mem_snapshot, mem_snapshot, contexts_storeAll, Ledger.mem_entries_putAll h]
  have hmem : (c.artifact, c) ∈ keyedBy live ↔ c ∈ live := by
    simp only [keyedBy, List.mem_map, Prod.mk.injEq]
    constructor
    · rintro ⟨d, hd, -, rfl⟩
      exact hd
    · exact fun hc => ⟨c, hc, rfl, rfl⟩
  rw [hmem]

/-- what is in a snapshot was stored at some time -/
theorem mem_of_mem_snapshot_storeAll (h : c ∈ (r.storeAll live).snapshot) : c ∈ live ∨ c ∈ r.snapshot := by
  rw [mem_snapshot, contexts_storeAll] at h
  rcases Ledger.mem_of_mem_putAll h with h | h
  · exact Or.inr (mem_snapshot.2 h)
  · obtain ⟨d, hd, heq⟩ := List.mem_map.1 h
    have hdc : d = c := (Prod.mk.inj heq).2
    exact Or.inl (hdc ▸ hd)

/-- **No stale entries.** When every registered artifact is stored again, the snapshot is what was stored. -/
theorem snapshot_perm_live (h : (live.map Context.artifact).Nodup)
    (hall : ∀ c ∈ r.snapshot, c.artifact ∈ live.map Context.artifact) : (r.storeAll live).snapshot.Perm live := by
  refine (List.perm_ext_iff_of_nodup (List.Nodup.of_map _ (nodup_artifacts _)) (List.Nodup.of_map _ h)).2 fun c => ?_
  rw [mem_snapshot_storeAll h]
  exact ⟨fun hc => hc.elim id fun hc => absurd (hall c hc.1) hc.2, Or.inl⟩

/-- an artifact is stale when it is registered and not live -/
theorem mem_stale {ids : List String} {artifact : String} :
    artifact ∈ r.stale ids ↔ artifact ∈ r.artifacts ∧ artifact ∉ ids := by
  simp only [stale, List.mem_filter, Bool.not_eq_true', List.contains_eq_mem, decide_eq_false_iff_not]

theorem stale_eq_nil (hall : ∀ c ∈ r.snapshot, c.artifact ∈ live.map Context.artifact) :
    r.stale (live.map Context.artifact) = [] := by
  refine List.eq_nil_iff_forall_not_mem.2 fun artifact h => ?_
  obtain ⟨hreg, hlive⟩ := mem_stale.1 h
  rw [artifacts_eq] at hreg
  obtain ⟨c, hc, rfl⟩ := List.mem_map.1 hreg
  exact hlive (hall c hc)

theorem ne_empty_of_mem_stale {ids : List String} {artifact : String} (h : artifact ∈ r.stale ids) : artifact ≠ "" := by
  obtain ⟨hreg, -⟩ := mem_stale.1 h
  rw [artifacts_eq] at hreg
  obtain ⟨c, -, rfl⟩ := List.mem_map.1 hreg
  exact c.artifact_ne

/-! ## In place or at the end -/

/-- the context stored for the artifact of `c`, if there is one, and else `c` itself -/
def renewed (live : List Context) (c : Context) : Context := (live.find? fun d => d.artifact = c.artifact).getD c

/-- **In place or at the end.** Stored contexts replace those of their artifacts where these stand, and contexts of new
artifacts follow in their own order. -/
theorem snapshot_storeAll (h : (live.map Context.artifact).Nodup) : (r.storeAll live).snapshot =
    r.snapshot.map (renewed live) ++ live.filter fun c => c.artifact ∉ r.artifacts := by
  rw [← map_fst_keyedBy] at h
  have hold : ∀ e ∈ r.contexts.entries, (Ledger.rewritten (keyedBy live) e).2 = renewed live e.2 := by
    intro e he
    rw [Ledger.rewritten, keyedBy, List.find?_map, renewed, r.keyed e he]
    cases hf : live.find? fun d => d.artifact = e.1 with
    | none => simp [hf]
    | some d => simp [hf]
  have hnew : ((keyedBy live).filter fun e => e.1 ∉ r.contexts.keys).map Prod.snd =
      live.filter fun c => c.artifact ∉ r.artifacts := by
    rw [keyedBy, List.filter_map, List.map_map]
    exact List.map_id _
  rw [snapshot, Ledger.values, contexts_storeAll, Ledger.entries_putAll_eq h, List.map_append, hnew, List.map_map]
  refine congrArg (· ++ _) ?_
  rw [snapshot, Ledger.values, List.map_map]
  exact List.map_congr_left hold

theorem artifact_renewed (live : List Context) (c : Context) : (renewed live c).artifact = c.artifact := by
  unfold renewed
  cases hf : live.find? fun d => d.artifact = c.artifact with
  | none => rfl
  | some d => simpa using List.find?_some hf

theorem artifacts_storeAll (h : (live.map Context.artifact).Nodup) : (r.storeAll live).artifacts =
    r.artifacts ++ (live.filter fun c => c.artifact ∉ r.artifacts).map Context.artifact := by
  have hsame : Context.artifact ∘ renewed live = Context.artifact := funext (artifact_renewed live)
  rw [artifacts_eq, snapshot_storeAll h, List.map_append, List.map_map, hsame, ← artifacts_eq]

/-- what is stale after contexts are stored was registered before -/
theorem stale_storeAll (h : (live.map Context.artifact).Nodup) : (r.storeAll live).stale (live.map Context.artifact) =
    r.artifacts.filter fun id => id ∉ live.map Context.artifact := by
  have hnew : ((live.filter fun c => c.artifact ∉ r.artifacts).map Context.artifact).filter
      (fun id => !(live.map Context.artifact).contains id) = [] := by
    rw [List.filter_eq_nil_iff]
    intro id hid
    obtain ⟨c, hc, rfl⟩ := List.mem_map.1 hid
    have hmem : c.artifact ∈ live.map Context.artifact := List.mem_map_of_mem (List.mem_of_mem_filter hc)
    simpa using hmem
  rw [stale, artifacts_storeAll h, List.filter_append, hnew, List.append_nil]
  exact List.filter_congr fun id _ => by rw [List.contains_eq_mem, decide_not]

end SignalWiring.Registry
