/-
How the fragments of a run fit together.

The root fragment binds every event to what a method of another fragment returns. Both sides derive the name of that
method on their own: the factory from the name of its handler, the block from the event and the suffix. `Wired` says that
they meet: the blocks of the root are the events of the whole registry in ascending order, each live event has its factory
in the fragment of its artifact and nowhere else, a stale event has none, and no factory is left without a block.

- `Factory.text_eq`, `Block.text_discovered`: the texts of a factory and of a block, by the method that they define or call.
- `Slots.infix_build_of_mem`, `BindingMethod.infix_text_of_mem`: where these texts stand.
- `run_wired`: `Wired` for every run that returns, after any history.
-/
import SignalWiring.Proofs.Returns

namespace SignalWiring

/-! ## Parts of a fragment -/

namespace Emission

/-- the method that a handler is made by -/
def getter (suffix event : String) : String := "Get" ++ (event ++ suffix)

theorem getter_injective (suffix : String) : Function.Injective (getter suffix) := by
  intro m n h
  exact (String.append_left_inj suffix).1 ((String.append_right_inj "Get").1 h)

/-- the method that a factory defines -/
def Factory.method (f : Factory) : String := "Get" ++ f.handler

/-- the method that a block calls, if it calls one -/
def Block.calls? : Block → Option String
  | .builtin .. => none
  | .discovered _ handler => some ("Get" ++ handler)

/-- the definition of the method of a factory: it returns a closure that passes the parameters on -/
def Factory.definition (f : Factory) : String :=
  "    private " ++ f.handler ++ " " ++ f.method ++ "()\n    \x7b\n" ++
    ("        return (" ++ Text.join ", " f.parameters ++ ") => " ++ f.dispatch ++ "(SignalName." ++ f.event ++
      forwarded f.parameters ++ ");\n    \x7d")

/-- the binding of an event to what a method returns -/
def binding (operator event method : String) : String :=
  "        if (SignalName." ++ event ++ ".Equals(signal))\n        \x7b\n" ++
    ("            " ++ event ++ " " ++ operator ++ " " ++ method ++ "();\n        \x7d")

theorem Factory.text_eq (f : Factory) : f.text = f.definition := by
  have hsplit : " Get" = " " ++ "Get" := by decide
  change "    private " ++ f.handler ++ " Get" ++ f.handler ++ "()\n    \x7b\n" ++
    ("        return (" ++ Text.join ", " f.parameters ++ ") => " ++ f.dispatch ++ "(SignalName." ++ f.event ++
      forwarded f.parameters ++ ");\n    \x7d") = _
  rw [hsplit]
  simp only [Factory.definition, Factory.method, String.append_assoc]

theorem Block.text_discovered (operator event handler : String) :
    (Block.discovered event handler).text operator = binding operator event ("Get" ++ handler) := by
  have hsplit : " Get" = " " ++ "Get" := by decide
  change "        if (SignalName." ++ event ++ ".Equals(signal))\n        \x7b\n" ++
    ("            " ++ event ++ " " ++ operator ++ " Get" ++ handler ++ "();\n        \x7d") = _
  rw [hsplit]
  unfold binding
  simp only [String.append_assoc]

/-! ### Where the texts stand -/

/-- a part stands in what is joined from parts -/
theorem infix_join_of_mem (separator : String) {x : String} {parts : List String} (h : x ∈ parts) :
    x.toList <:+: (Text.join separator parts).toList := by
  rw [Text.join, String.toList_intercalate]
  induction parts with
  | nil => exact absurd h List.not_mem_nil
  | cons y rest ih =>
    cases rest with
    | nil =>
      obtain rfl := List.mem_singleton.1 h
      rw [List.map_singleton, List.intercalate_singleton]
    | cons z rest =>
      rw [List.map_cons, List.map_cons, List.intercalate_cons_cons]
      rcases List.mem_cons.1 h with rfl | h
      · exact List.infix_append_of_infix_left (List.prefix_append _ _).isInfix
      · exact (ih h).trans (List.suffix_append _ _).isInfix

/-- a member stands in the source of its class -/
theorem Slots.infix_build_of_mem {s : Slots} {x : String} (h : x ∈ s.fields ++ s.factories ++ s.methods) :
    x.toList <:+: s.build.toList := by
  have hclass : x.toList <:+: s.classText.toList := by
    have hbody := infix_join_of_mem "\n\n" h
    simp only [classText]
    by_cases hempty : Text.join "\n\n" (s.fields ++ s.factories ++ s.methods) = ""
    · rw [hempty] at hbody
      rw [List.infix_nil.1 hbody]
      exact List.nil_infix
    · rw [if_neg hempty]
      exact hbody.trans (infix_join_of_mem _ (List.mem_cons_of_mem _ List.mem_cons_self))
  rw [build, String.toList_append]
  refine List.infix_append_of_infix_left (hclass.trans (infix_join_of_mem _ ?_))
  exact List.mem_append_right _ (List.mem_singleton_self _)

/-- a block stands in its method -/
theorem BindingMethod.infix_text_of_mem {m : BindingMethod} {b : Block} (h : b ∈ m.blocks) :
    (b.text m.operator).toList <:+: m.text.toList := by
  have hblocks := infix_join_of_mem "\n\n" (List.mem_map_of_mem (f := Block.text m.operator) h)
  change _ <:+: (("    private void " ++ m.name ++ "(Godot.StringName signal)\n    \x7b\n") ++
    Text.join "\n\n" (m.blocks.map (Block.text m.operator)) ++ "\n    \x7d").toList
  rw [String.toList_append, String.toList_append]
  exact hblocks.trans (List.infix_append _ _ _)

/-! ### Parts -/

/-- what a fragment is made of, before it becomes text -/
structure Parts where
  tables : List LookupTable
  factories : List Factory
  methods : List BindingMethod

/-- the slots that hold the texts of the parts -/
def Parts.slots (config : Config) (c : Context) (parts : Parts) : Slots where
  artifact := c.artifact
  namespaceName := c.namespaceName
  container := config.container
  fields := parts.tables.map LookupTable.text
  factories := parts.factories.map Factory.text
  methods := parts.methods.map BindingMethod.text
  artifact_ne := c.artifact_ne
  container_ne := Text.ne_empty_of_isIdentifier config.container_ok

def Renderer.parts (r : Renderer) (c : Context) (t : IdTable) : Parts where
  tables := if r.config.isRoot c.artifact then [nameTable t, idTable t] else []
  factories := r.factories c
  methods := if r.config.isRoot c.artifact then [r.connect t, r.disconnect t] else []

theorem Renderer.slots_eq (r : Renderer) (c : Context) (t : IdTable) :
    r.slots c (r.config.isRoot c.artifact) t = (r.parts c t).slots r.config c := by
  simp only [slots, parts, Parts.slots]
  split
  · rfl
  · rfl

/-- a fragment, the context that it is made for, and the parts that its source is put together from -/
structure Assembled (config : Config) where
  fragment : Fragment
  context : Context
  parts : Parts
  artifact_eq : fragment.artifact = context.artifact
  root_eq : fragment.isRoot = config.isRoot context.artifact
  source_eq : fragment.source = (parts.slots config context).build

/-- every fragment of some contexts is assembled -/
theorem exists_assembled {r : Renderer} {t : IdTable} {live : List Context} {fragments : List Fragment}
    (h : List.Forall₂ (fun c f => r.renderFragment c t = .ok f) live fragments) :
    ∃ made : List (Assembled r.config), made.map Assembled.fragment = fragments ∧ made.map Assembled.context = live ∧
      ∀ m ∈ made, m.parts = r.parts m.context t := by
  induction h with
  | nil => exact ⟨[], rfl, rfl, fun _ hm => nomatch hm⟩
  | @cons c f rest fragments hf _ ih =>
    obtain ⟨made, hfragments, hcontexts, hparts⟩ := ih
    obtain ⟨hartifact, hroot, hsource⟩ := Renderer.renderFragment_eq_ok hf
    rw [Renderer.slots_eq] at hsource
    refine ⟨⟨f, c, r.parts c t, hartifact, hroot, hsource⟩ :: made, ?_, ?_, ?_⟩
    · rw [List.map_cons, hfragments]
    · rw [List.map_cons, hcontexts]
    · intro m hm
      rcases List.mem_cons.1 hm with rfl | hm
      · rfl
      · exact hparts m hm

/-- the methods that the factories of some fragments define, in order -/
def defined {config : Config} (made : List (Assembled config)) : List String :=
  made.flatMap fun m => m.parts.factories.map Factory.method

end Emission

/-! ## Wiring -/

open Emission Assignment

/-- the fragments of a run fit together; `events` are the events of `snapshot` in the order of their identifiers -/
structure Wired (config : Config) (snapshot live : List Context) (g : Generation) (made : List (Assembled config))
    (events : List String) : Prop where
  /-- the fragments of the run, one for each live context -/
  fragments : made.map Assembled.fragment = g.fragments
  contexts : made.map Assembled.context = live
  /-- every event of the snapshot, once -/
  all : events.Perm (eventNames snapshot)
  distinct : events.Nodup
  ascending : events.Pairwise fun m n => ∃ i j, g.table.names.get? m = some i ∧ g.table.names.get? n = some j ∧ i < j
  /-- the artifact of an event is the one that declares it -/
  origin : ∀ e artifact, g.table.origins.get? e = some artifact ↔ ∃ c ∈ snapshot, e ∈ c.events ∧ c.artifact = artifact
  /-- the root connects and disconnects the built-in events and then these events, and nothing else -/
  blocks : ∀ m ∈ made, m.fragment.isRoot = true → ∃ bs, m.parts.methods =
    [⟨"ConnectSignal", "+=", bs⟩, ⟨"DisconnectSignal", "-=", bs⟩] ∧
      bs = BuiltinEvent.all.map (Block.ofBuiltin config.dispatch) ++ events.map (Block.ofEvent config.suffix) ∧
      bs.filterMap Block.calls? = events.map (getter config.suffix)
  /-- the factory of a live event is defined once, in the fragment of its artifact, and passes its own parameters on -/
  current : ∀ e ∈ events, ∀ artifact ∈ live.map Context.artifact, g.table.origins.get? e = some artifact →
    (defined made).count (getter config.suffix e) = 1 ∧
      ∃ m ∈ made, m.fragment.artifact = artifact ∧ ∃ h ∈ m.context.handlers, h.event = e ∧
        ∃ f ∈ m.parts.factories, f.method = getter config.suffix e ∧ f.event = e ∧ f.parameters = h.parameters ∧
          f.dispatch = config.dispatch
  /-- the factory of a stale event is defined nowhere -/
  stale : ∀ e ∈ events, ∀ artifact ∉ live.map Context.artifact, g.table.origins.get? e = some artifact →
    getter config.suffix e ∉ defined made
  /-- what is defined is called by one block of each method -/
  called : ∀ m ∈ made, m.fragment.isRoot = true → ∀ method ∈ m.parts.methods, ∀ name ∈ defined made,
    (method.blocks.filterMap Block.calls?).count name = 1
  /-- in the source of a fragment stands the definition of the method of each of its factories -/
  defines : ∀ m ∈ made, ∀ f ∈ m.parts.factories, f.definition.toList <:+: m.fragment.source.toList
  /-- in the source of the root stand both methods, and in each of them the binding of every event to what the method of
  its factory returns -/
  binds : ∀ m ∈ made, m.fragment.isRoot = true → ∀ method ∈ m.parts.methods,
    method.text.toList <:+: m.fragment.source.toList ∧
      ∀ e ∈ events, (binding method.operator e (getter config.suffix e)).toList <:+: method.text.toList

section Wiring

variable {config : Config} {snapshot live : List Context} {made : List (Assembled config)} {t : IdTable}

def rendering (config : Config) : Renderer := { config := config }

/-- the methods that are defined, by the events of the contexts that the fragments are made for -/
theorem defined_eq (hparts : ∀ m ∈ made, m.parts = (rendering config).parts m.context t)
    (hnamed : ∀ c ∈ made.map Assembled.context, ∀ h ∈ c.handlers, h.Named config.suffix) :
    defined made = (eventNames (made.map Assembled.context)).map (getter config.suffix) := by
  induction made with
  | nil => rfl
  | cons m rest ih =>
    have hhead : m.parts.factories.map Factory.method = m.context.events.map (getter config.suffix) := by
      rw [hparts m List.mem_cons_self, Context.events, List.map_map]
      refine List.map_map.trans (List.map_congr_left fun h hh => ?_)
      exact congrArg ("Get" ++ ·) (hnamed m.context (by simp) h hh)
    have htail := ih (fun x hx => hparts x (List.mem_cons_of_mem _ hx))
      fun c hc => hnamed c (by rw [List.map_cons]; exact List.mem_cons_of_mem _ hc)
    rw [defined, List.flatMap_cons, hhead]
    rw [defined] at htail
    rw [htail, List.map_cons, eventNames, eventNames, List.flatMap_cons, List.map_append]

/-- the blocks call the methods of the events, in order -/
theorem calls_blocks (config : Config) (t : IdTable) :
    ((rendering config).blocks t).filterMap Block.calls? = t.discoveredNames.map (getter config.suffix) := by
  have hbuiltin : (BuiltinEvent.all.map (Block.ofBuiltin config.dispatch)).filterMap Block.calls? = [] := by
    rw [List.filterMap_eq_nil_iff]
    intro b hb
    obtain ⟨e, -, rfl⟩ := List.mem_map.1 hb
    rfl
  have hdiscovered : (t.discoveredNames.map (Block.ofEvent config.suffix)).filterMap Block.calls? =
      t.discoveredNames.map (getter config.suffix) := by
    rw [List.filterMap_map, ← List.filterMap_eq_map]
    rfl
  rw [Renderer.blocks, List.filterMap_append]
  exact (congrArg₂ (· ++ ·) hbuiltin hdiscovered).trans (List.nil_append _)

/-- live contexts of a snapshot declare no event twice -/
theorem nodup_eventNames_live (hsnapshot : (eventNames snapshot).Nodup) (hsub : ∀ c ∈ live, c ∈ snapshot)
    (hlive : live.Nodup) : (eventNames live).Nodup := by
  obtain ⟨kept, hperm, hsublist⟩ := List.subperm_of_subset hlive hsub
  have hkept : (eventNames kept).Nodup := (hsublist.flatMap Context.events).nodup hsnapshot
  exact (hperm.flatMap_right Context.events).nodup_iff.1 hkept

/-- Fragments made for live contexts of a numbered snapshot fit together. -/
theorem wired_of_table {g : Generation} (hfragments : made.map Assembled.fragment = g.fragments)
    (hcontexts : made.map Assembled.context = live)
    (hparts : ∀ m ∈ made, m.parts = (rendering config).parts m.context g.table)
    (htable : assign snapshot config.order BuiltinEvent.all = .ok g.table) (hsub : ∀ c ∈ live, c ∈ snapshot)
    (hlive : live.Nodup) (hunique : ∀ c ∈ snapshot, ∀ d ∈ snapshot, c.artifact = d.artifact → c = d)
    (hnamed : ∀ c ∈ snapshot, ∀ h ∈ c.handlers, h.Named config.suffix) :
    Wired config snapshot live g made g.table.discoveredNames := by
  have hnumbers := numbers_of_assign consistentKeys_all htable
  have hperm := discoveredNames_perm htable
  have hsnapshot : (eventNames snapshot).Nodup := (exists_assign_all_iff.1 ⟨_, htable⟩).1
  have hevents : g.table.discoveredNames.Nodup := hperm.nodup_iff.2 hsnapshot
  have hdefined : defined made = (eventNames live).map (getter config.suffix) := by
    rw [← hcontexts]
    refine defined_eq hparts fun c hc => hnamed c (hsub c ?_)
    rw [← hcontexts]
    exact hc
  have hdistinct : (defined made).Nodup := by
    rw [hdefined]
    exact (nodup_eventNames_live hsnapshot hsub hlive).map (getter_injective _)
  have hmethods : ∀ m ∈ made, m.fragment.isRoot = true →
      m.parts.methods = [(rendering config).connect g.table, (rendering config).disconnect g.table] := by
    intro m hm hroot
    have hisroot : (rendering config).config.isRoot m.context.artifact = true := m.root_eq.symm.trans hroot
    rw [hparts m hm]
    simp only [Renderer.parts, hisroot, if_true]
  refine ⟨hfragments, hcontexts, hperm, hevents, discoveredNames_ascending htable, hnumbers.origin, ?_, ?_, ?_, ?_, ?_,
    ?_⟩
  · intro m hm hroot
    exact ⟨(rendering config).blocks g.table, hmethods m hm hroot, rfl, calls_blocks config g.table⟩
  · intro e he artifact hartifact horigin
    obtain ⟨c, hc, hec, rfl⟩ := (hnumbers.origin e artifact).1 horigin
    obtain ⟨d, hd, hdc⟩ := List.mem_map.1 hartifact
    obtain rfl : d = c := hunique d (hsub d hd) c hc hdc
    refine ⟨List.count_eq_one_of_mem hdistinct ?_, ?_⟩
    · rw [hdefined]
      exact List.mem_map_of_mem (List.mem_flatMap.2 ⟨d, hd, hec⟩)
    · rw [← hcontexts] at hd
      obtain ⟨m, hm, rfl⟩ := List.mem_map.1 hd
      obtain ⟨h, hh, rfl⟩ := List.mem_map.1 hec
      refine ⟨m, hm, m.artifact_eq, h, hh, rfl, Factory.ofHandler config.dispatch h, ?_, ?_, rfl, rfl, rfl⟩
      · rw [hparts m hm]
        exact List.mem_map_of_mem hh
      · exact congrArg ("Get" ++ ·) (hnamed m.context hc h hh)
  · intro e he artifact hartifact horigin hmem
    rw [hdefined] at hmem
    obtain ⟨x, hx, hxe⟩ := List.mem_map.1 hmem
    obtain rfl : x = e := getter_injective _ hxe
    obtain ⟨c, hc, hec⟩ := List.mem_flatMap.1 hx
    have hother : g.table.origins.get? x = some c.artifact := (hnumbers.origin x _).2 ⟨c, hsub c hc, hec, rfl⟩
    obtain rfl : artifact = c.artifact := Option.some.inj (horigin.symm.trans hother)
    exact hartifact (List.mem_map_of_mem hc)
  · intro m hm hroot method hmethod name hname
    have hcalls : method.blocks.filterMap Block.calls? = g.table.discoveredNames.map (getter config.suffix) := by
      rw [hmethods m hm hroot] at hmethod
      rcases List.mem_cons.1 hmethod with rfl | hmethod
      · exact calls_blocks config g.table
      · rw [List.mem_singleton.1 hmethod]
        exact calls_blocks config g.table
    rw [hdefined] at hname
    obtain ⟨e, he, rfl⟩ := List.mem_map.1 hname
    obtain ⟨c, hc, hec⟩ := List.mem_flatMap.1 he
    rw [hcalls]
    refine List.count_eq_one_of_mem (hevents.map (getter_injective _)) (List.mem_map_of_mem ?_)
    exact hperm.mem_iff.2 (List.mem_flatMap.2 ⟨c, hsub c hc, hec⟩)
  · intro m _ f hf
    rw [m.source_eq, ← f.text_eq]
    exact Slots.infix_build_of_mem (List.mem_append_left _ (List.mem_append_right _ (List.mem_map_of_mem hf)))
  · intro m hm hroot method hmethod
    refine ⟨?_, fun e he => ?_⟩
    · rw [m.source_eq]
      exact Slots.infix_build_of_mem (List.mem_append_right _ (List.mem_map_of_mem hmethod))
    · have hblocks : method.blocks = (rendering config).blocks g.table := by
        rw [hmethods m hm hroot] at hmethod
        rcases List.mem_cons.1 hmethod with rfl | hmethod
        · rfl
        · rw [List.mem_singleton.1 hmethod]
          rfl
      rw [getter, ← Block.text_discovered]
      refine BindingMethod.infix_text_of_mem ?_
      rw [hblocks]
      exact List.mem_append_right _ (List.mem_map_of_mem he)

end Wiring

section Run

/-- **Wiring.** After any history, the fragments of a run that returns fit together. -/
theorem run_wired (read : SourceReader) (config : Config) (calls : List Pipeline.Call) (artifacts : List Artifact)
    (g : Generation)
    (hg : ((Pipeline.reading read config).runAfter calls artifacts).outcome = .ok g) :
    ∃ made events, Wired config ((Pipeline.reading read config).runAfter calls artifacts).session.registry.snapshot
      ((Pipeline.reading read config).liveAfter calls artifacts) g made events := by
  have hfrom : Pipeline.From read config (fun _ => True) (Pipeline.history (.reading read config) calls) :=
    Pipeline.from_history calls fun _ _ _ _ => trivial
  rw [Pipeline.runAfter] at hg ⊢
  rw [Pipeline.liveAfter]
  have hids := Pipeline.nodup_of_run_ok hg
  obtain ⟨es, ds, hcourse⟩ := Pipeline.run_course hfrom (fun _ _ => trivial) hids
  have hregistered := (hcourse.from_session hfrom).registered
  have hnodup := Pipeline.nodup_live hcourse.yields hids
  rw [hcourse.outcome] at hg
  obtain ⟨htable, hfragments, -⟩ := Pipeline.emit_eq_ok hg
  rw [← hcourse.registry] at htable
  obtain ⟨made, hmade, hcontexts, hparts⟩ := exists_assembled (r := rendering config) (mapM_eq_ok hfragments)
  rw [← hcourse.live] at hcontexts
  have hsub : ∀ c ∈ (Pipeline.reading read config).live (Pipeline.history (.reading read config) calls) artifacts,
      c ∈ ((Pipeline.reading read config).run (Pipeline.history (.reading read config) calls)
        artifacts).session.registry.snapshot := by
    rw [hcourse.registry, hcourse.live]
    exact Pipeline.mem_registry_of_live hnodup
  refine ⟨made, _, wired_of_table hmade hcontexts hparts htable hsub ?_ ?_ ?_⟩
  · rw [hcourse.live]
    exact List.Nodup.of_map _ hnodup
  · exact fun c hc d hd => Registry.eq_of_mem_snapshot hc hd
  · intro c hc h hh
    obtain ⟨b, e, -, he, hce⟩ := hregistered c hc
    exact (extract_fits he).named c hce h hh

/-! ### A root and a stale artifact -/

namespace Sample

/-- the root artifact, with an event of its own -/
def root : Artifact :=
  ⟨⟨.here, ["Behavior.cs"], by decide⟩,
    "partial class Behavior\n\x7b\n    [Signal] delegate void DiedEventHandler();\n\x7d\n", by decide⟩

/-- the root and another artifact -/
def earlier : List Pipeline.Call := [.run [root, Cache.Sample.before]]

end Sample

theorem run_wired_sample : ∃ g,
    (Pipeline.Sample.outlining.runAfter Sample.earlier [Sample.root]).outcome = .ok g ∧
    (∃ f ∈ g.fragments, f.isRoot = true) ∧
    (Pipeline.Sample.outlining.runAfter Sample.earlier [Sample.root]).session.registry.stale
      ((Pipeline.Sample.outlining.liveAfter Sample.earlier [Sample.root]).map Context.artifact) = ["Foo.cs"] ∧
    ∃ made events, Wired .standard
      (Pipeline.Sample.outlining.runAfter Sample.earlier [Sample.root]).session.registry.snapshot
      (Pipeline.Sample.outlining.liveAfter Sample.earlier [Sample.root]) g made events := by
  have hfrom : Pipeline.From (.ofText Cache.Sample.outlined) .standard (fun _ => True)
      (Pipeline.Sample.outlining.history Sample.earlier) := Pipeline.from_history _ fun _ _ _ _ => trivial
  have hhistory : Pipeline.Sample.outlining.history Sample.earlier =
      Pipeline.Sample.outlining.settled .fresh [Sample.root, Cache.Sample.before] :=
    Pipeline.run_session (U := fun _ => True) Pipeline.from_fresh (fun _ _ => trivial) (by decide)
  have hsession : (Pipeline.Sample.outlining.runAfter Sample.earlier [Sample.root]).session =
      Pipeline.Sample.outlining.settled
        (Pipeline.Sample.outlining.settled .fresh [Sample.root, Cache.Sample.before]) [Sample.root] := by
    rw [← hhistory]
    exact Pipeline.run_session hfrom (fun _ _ => trivial) (by decide)
  have hregistered : (Pipeline.Sample.outlining.runAfter Sample.earlier
      [Sample.root]).session.registry.snapshot.map (fun c => (c.artifact, c.events)) =
        [("Behavior.cs", ["Died"]), ("Foo.cs", ["Jumped"])] := by
    rw [hsession]
    decide +kernel
  have hlive : (Pipeline.Sample.outlining.liveAfter Sample.earlier [Sample.root]).map Context.artifact =
      ["Behavior.cs"] := by
    rw [Pipeline.liveAfter, hhistory]
    decide +kernel
  have hevents : eventNames (Pipeline.Sample.outlining.runAfter Sample.earlier
      [Sample.root]).session.registry.snapshot = ["Died", "Jumped"] := by
    have hnames := congrArg (List.flatMap Prod.snd) hregistered
    rw [List.flatMap_map] at hnames
    exact hnames
  have hartifacts : (Pipeline.Sample.outlining.runAfter Sample.earlier [Sample.root]).session.registry.artifacts =
      ["Behavior.cs", "Foo.cs"] := by
    have hnames := congrArg (List.map Prod.fst) hregistered
    rw [List.map_map] at hnames
    exact Registry.artifacts_eq.trans hnames
  obtain ⟨g, hg⟩ : ∃ g, (Pipeline.Sample.outlining.runAfter Sample.earlier [Sample.root]).outcome = .ok g := by
    refine (Pipeline.run_returns_iff hfrom fun _ _ => trivial).2 ⟨by decide, ?_⟩
    change (eventNames (Pipeline.Sample.outlining.runAfter Sample.earlier
        [Sample.root]).session.registry.snapshot).Nodup ∧
      ∀ n ∈ eventNames (Pipeline.Sample.outlining.runAfter Sample.earlier [Sample.root]).session.registry.snapshot,
        n ∉ BuiltinEvent.all.map BuiltinEvent.key
    rw [hevents]
    decide
  obtain ⟨made, events, hwired⟩ := run_wired _ _ Sample.earlier [Sample.root] g hg
  have hcontexts : (made.map Assembled.context).map Context.artifact = ["Behavior.cs"] := by
    rw [hwired.contexts]
    exact hlive
  obtain ⟨c, hc, hartifact⟩ := List.mem_map.1 (hcontexts ▸ List.mem_singleton_self "Behavior.cs")
  obtain ⟨m, hm, rfl⟩ := List.mem_map.1 hc
  refine ⟨g, hg, ⟨m.fragment, ?_, ?_⟩, by rw [Registry.stale, hlive, hartifacts]; decide, made, events, hwired⟩
  · rw [← hwired.fragments]
    exact List.mem_map_of_mem hm
  · rw [m.root_eq, hartifact]
    decide

end Run

end SignalWiring
