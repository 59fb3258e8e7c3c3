/-
What a fragment depends on.

A fragment is rendered from the context of its artifact. The table of the run enters into the root fragment alone, and
there through its items alone.

- `fragment_unique`: two fragments of one context are the same, unless it is that of the root and the tables differ.
- `perm_of_forall₂`: lists that are made element by element from two orders of one list are two orders of one list.
- `fragments_of_run`: the fragments of a run are rendered from contexts of different artifacts of the run.
-/
import SignalWiring.Proofs.Returns

namespace SignalWiring

/-! ## Lists made element by element -/

section Lists

variable {α β : Type} {R S : α → β → Prop} {xs ys : List α} {us vs : List β}

/-- If each element is made into the same thing on both sides, both sides are the same. -/
theorem eq_of_forall₂ (hx : List.Forall₂ R xs us) (hy : List.Forall₂ S xs vs)
    (hsame : ∀ x ∈ xs, ∀ u v, R x u → S x v → u = v) : us = vs := by
  induction hx generalizing vs with
  | nil => exact (List.forall₂_nil_left_iff.1 hy).symm
  | @cons x u rest us hu _ ih =>
    obtain ⟨v, vs, hv, hrest, rfl⟩ := List.forall₂_cons_left_iff.1 hy
    rw [hsame x List.mem_cons_self u v hu hv, ih hrest fun y hy => hsame y (List.mem_cons_of_mem _ hy)]

/-- What is made is made from an element. -/
theorem exists_of_forall₂ {u : β} (h : List.Forall₂ R xs us) (hu : u ∈ us) : ∃ x ∈ xs, R x u := by
  induction h with
  | nil => cases hu
  | @cons x v rest us hx _ ih =>
    rcases List.mem_cons.1 hu with rfl | hu
    · exact ⟨x, List.mem_cons_self, hx⟩
    · obtain ⟨y, hy, hyu⟩ := ih hu
      exact ⟨y, List.mem_cons_of_mem _ hy, hyu⟩

/-- Made of different elements they are different, when those that are alike are made of elements that are alike. -/
theorem nodup_of_forall₂ {γ δ : Type} {f : α → γ} {g : β → δ} (h : List.Forall₂ R xs us) (hxs : (xs.map f).Nodup)
    (hsame : ∀ x ∈ xs, ∀ y ∈ xs, ∀ u v, R x u → R y v → g u = g v → f x = f y) : (us.map g).Nodup := by
  induction h with
  | nil => exact List.nodup_nil
  | @cons x u rest us hu hrest ih =>
    obtain ⟨hx, hnodup⟩ := List.nodup_cons.1 hxs
    refine List.nodup_cons.2 ⟨fun hmem => ?_, ih hnodup fun y hy z hz => ?_⟩
    · obtain ⟨v, hv, hvu⟩ := List.mem_map.1 hmem
      obtain ⟨y, hy, hyv⟩ := exists_of_forall₂ hrest hv
      rw [hsame x List.mem_cons_self y (List.mem_cons_of_mem _ hy) u v hu hyv hvu.symm] at hx
      exact hx (List.mem_map_of_mem hy)
    · exact hsame y (List.mem_cons_of_mem _ hy) z (List.mem_cons_of_mem _ hz)

/-- Made from two orders of one list, they are two orders of one list. -/
theorem perm_of_forall₂ (h : xs.Perm ys) (hx : List.Forall₂ R xs us) (hy : List.Forall₂ S ys vs)
    (hsame : ∀ x ∈ xs, ∀ u v, R x u → S x v → u = v) : us.Perm vs := by
  -- first the elements of `vs` in the order of `xs`, and then one by one
  obtain ⟨ws, hws, hperm⟩ := List.perm_comp_forall₂ h hy
  exact eq_of_forall₂ hx hws hsame ▸ hperm

end Lists

/-! ## One fragment -/

namespace Emission.Renderer

variable {r : Renderer} {c : Context} {t u : IdTable} {f g : Fragment}

/-- the output name of a fragment is that of its artifact -/
theorem hint_of_renderFragment (h : r.renderFragment c t = .ok f) :
    hintName c.artifact r.config.generated = .ok f.hint := by
  obtain ⟨hint, hhint, h⟩ := bind_eq_ok h
  obtain ⟨source, -, h⟩ := bind_eq_ok h
  simp only [Fragment.make] at h
  split_ifs at h
  cases h
  exact hhint

/-- the slots of the root fragment depend on the items of the table -/
theorem slots_of_items (c : Context) (isRoot : Bool) (h : t.items = u.items) :
    r.slots c isRoot t = r.slots c isRoot u := by
  have hnames : nameTable t = nameTable u := by rw [nameTable, nameTable, h]
  have hids : idTable t = idTable u := by rw [idTable, idTable, h]
  have hblocks : r.blocks t = r.blocks u := by
    rw [blocks, blocks, IdTable.discoveredNames, IdTable.discoveredNames, IdTable.discoveredItems,
      IdTable.discoveredItems, h]
  simp only [slots, connect, disconnect, hnames, hids, hblocks]

/-- those of any other fragment do not depend on the table -/
theorem slots_of_other (r : Renderer) (c : Context) (t u : IdTable) : r.slots c false t = r.slots c false u := by
  simp only [slots, Bool.false_eq_true, if_false]

/-- **One context, one fragment.** Whatever the two tables, a context has one fragment, unless it is that of the root and
the items of the tables differ. -/
theorem fragment_unique (hf : r.renderFragment c t = .ok f) (hg : r.renderFragment c u = .ok g)
    (h : r.config.isRoot c.artifact = false ∨ t.items = u.items) : f = g := by
  obtain ⟨hartifact, hroot, hsource⟩ := renderFragment_eq_ok hf
  obtain ⟨hartifact', hroot', hsource'⟩ := renderFragment_eq_ok hg
  have hslots : r.slots c (r.config.isRoot c.artifact) t = r.slots c (r.config.isRoot c.artifact) u := by
    rcases h with hother | hitems
    · rw [hother]
      exact slots_of_other r c t u
    · exact slots_of_items c _ hitems
  refine Fragment.ext (hartifact.trans hartifact'.symm) ?_ ?_ (hroot.trans hroot'.symm)
  · exact Except.ok.inj ((hint_of_renderFragment hf).symm.trans (hint_of_renderFragment hg))
  · rw [hsource, hsource', hslots]

end Emission.Renderer

/-! ## The fragments of several contexts -/

namespace Pipeline

variable {p : Pipeline} {live others : List Context} {t u : IdTable} {fs gs : List Fragment}

def renderer (p : Pipeline) : Emission.Renderer := { config := p.config }

theorem forall₂_of_fragmentsOf (h : p.fragmentsOf live t = .ok fs) :
    List.Forall₂ (fun c f => p.renderer.renderFragment c t = .ok f) live fs := mapM_eq_ok h

/-- fragments that are picked out are those of the contexts that are picked out likewise -/
theorem forall₂_filter {keep : Context → Bool} {keep' : Fragment → Bool}
    (hkeep : ∀ c f, p.renderer.renderFragment c t = .ok f → keep' f = keep c) (h : p.fragmentsOf live t = .ok fs) :
    List.Forall₂ (fun c f => p.renderer.renderFragment c t = .ok f) (live.filter keep) (fs.filter keep') :=
  List.rel_filter (fun {c f} hf => iff_of_eq (congrArg (· = true) (hkeep c f hf).symm)) (forall₂_of_fragmentsOf h)

/-- **Fragments in another order.** The same contexts in another order have the same fragments, when the tables have the
same items. -/
theorem fragmentsOf_perm (hperm : live.Perm others) (hf : p.fragmentsOf live t = .ok fs)
    (hg : p.fragmentsOf others u = .ok gs) (hitems : t.items = u.items) : fs.Perm gs :=
  perm_of_forall₂ hperm (forall₂_of_fragmentsOf hf) (forall₂_of_fragmentsOf hg) fun _ _ _ _ hf hg =>
    Emission.Renderer.fragment_unique hf hg (Or.inr hitems)

/-- Without that of the root they are the same whatever the tables. -/
theorem fragmentsOf_perm_other (hperm : live.Perm others) (hf : p.fragmentsOf live t = .ok fs)
    (hg : p.fragmentsOf others u = .ok gs) :
    (fs.filter fun f => !f.isRoot).Perm (gs.filter fun g => !g.isRoot) := by
  have hkeep : ∀ v c f, p.renderer.renderFragment c v = .ok f → (!f.isRoot) = !p.config.isRoot c.artifact :=
    fun v c f hf => congrArg (!·) (Emission.Renderer.renderFragment_eq_ok hf).2.1
  refine perm_of_forall₂ (hperm.filter fun c => !p.config.isRoot c.artifact) (forall₂_filter (hkeep t) hf)
    (forall₂_filter (hkeep u) hg) fun c hc f g hf hg => ?_
  have hother : p.config.isRoot c.artifact = false := by simpa using (List.mem_filter.1 hc).2
  exact Emission.Renderer.fragment_unique hf hg (Or.inl hother)

/-! ## The fragments of a run -/

section Runs

variable {read : SourceReader} {config : Config} {U : Artifact → Prop} {s : Session} {artifacts : List Artifact}
  {g : Generation}

/-- **The fragments of a run.** Whatever the registry holds, they are rendered from contexts of different artifacts of
the run. -/
theorem fragments_of_run (h : Kept read config U s.cache) (hU : ∀ a ∈ artifacts, U a)
    (hg : ((reading read config).run s artifacts).outcome = .ok g) :
    ∃ contexts : List Context, (contexts.map Context.artifact).Nodup ∧
      (contexts.map Context.artifact).Sublist (artifacts.map Artifact.id) ∧
      List.Forall₂ (fun c f => (reading read config).renderer.renderFragment c g.table = .ok f) contexts
        g.fragments := by
  have hids := nodup_of_run_ok hg
  obtain ⟨after, es, records, hall, hyields, -⟩ := extractAll_yields h hU
  obtain ⟨-, notices, -, houtcome⟩ := run_of_extractAll hids hall
  rw [houtcome] at hg
  exact ⟨es.filterMap Extraction.context, nodup_live hyields hids, map_artifact_sublist hyields,
    forall₂_of_fragmentsOf (emit_eq_ok hg).2.1⟩

/-- Every fragment of a run has the output name of one of its artifacts. -/
theorem hintName_of_run (h : Kept read config U s.cache) (hU : ∀ a ∈ artifacts, U a)
    (hg : ((reading read config).run s artifacts).outcome = .ok g) :
    ∀ f ∈ g.fragments, ∃ a ∈ artifacts, hintName a.id config.generated = .ok f.hint := by
  intro f hf
  obtain ⟨contexts, -, hsub, hmade⟩ := fragments_of_run h hU hg
  obtain ⟨c, hc, hcf⟩ := exists_of_forall₂ hmade hf
  obtain ⟨a, ha, hac⟩ := List.mem_map.1 (hsub.subset (List.mem_map_of_mem hc))
  have hhint := Emission.Renderer.hint_of_renderFragment hcf
  rw [← hac] at hhint
  exact ⟨a, ha, hhint⟩

/-- There are no more fragments than artifacts. -/
theorem length_fragments_le (h : Kept read config U s.cache) (hU : ∀ a ∈ artifacts, U a)
    (hg : ((reading read config).run s artifacts).outcome = .ok g) : g.fragments.length ≤ artifacts.length := by
  obtain ⟨contexts, -, hsub, hmade⟩ := fragments_of_run h hU hg
  have hle := hsub.length_le
  rw [List.length_map, List.length_map] at hle
  rw [← hmade.length_eq]
  exact hle

end Runs

end Pipeline

end SignalWiring
