/-
Events that are declared twice.

The events of a snapshot are collected in one walk over its declarations. A declaration is in the way when its event is
reserved or has been declared before it in the walk. The walk stops at the first such declaration and reports it
together with who has the event already; a walk that nothing is in the way of lists every declaration.

- `free_iff`: nothing is in the way exactly when no event is reserved and none occurs twice.
- `exists_stopsAt`: where something is in the way, there is a first declaration that is.
- `collect_stops`: the collection reports that one, whatever follows it.
- `assign_stops_iff`: when the numbering of a snapshot stops for a declaration, and for which one.
-/
import SignalWiring.Proofs.Numbering

namespace SignalWiring.Assignment

/-! ## Declarations that are in the way -/

/-- after the declarations `before`, the event is taken: it is reserved or was declared there -/
def Taken (reserved : List String) (before : List (String × String)) (event : String) : Prop :=
  event ∈ reserved ∨ event ∈ before.map Prod.fst

/-- no declaration of the walk has an event that is taken where it stands -/
def Free (reserved : List String) (walk : List (String × String)) : Prop :=
  ∀ before d, before ++ [d] <+: walk → ¬Taken reserved before d.1

/-- The walk is free up to a declaration of `event` by `second`, and there the event is taken: by the engine when it is
reserved, and otherwise by `first`, the only one to have declared it up to there. -/
def StopsAt (reserved : List String) (walk : List (String × String)) (event first second : String) : Prop :=
  ∃ before, before ++ [(event, second)] <+: walk ∧ Free reserved before ∧
    (event ∈ reserved ∧ first = builtinOrigin ∨
      event ∉ reserved ∧ before.filter (fun d => d.1 = event) = [(event, first)])

section Walk

variable {reserved : List String} {walk before : List (String × String)} {d : String × String}

theorem Free.of_prefix (h : Free reserved walk) (hbefore : before <+: walk) : Free reserved before :=
  fun front x hx => h front x (hx.trans hbefore)

/-- a walk is free when it is free without its last declaration and that one is not in the way -/
theorem free_concat : Free reserved (walk ++ [d]) ↔ Free reserved walk ∧ ¬Taken reserved walk d.1 := by
  constructor
  · intro h
    exact ⟨h.of_prefix (List.prefix_append _ _), h walk d (List.prefix_refl _)⟩
  · rintro ⟨hfree, hlast⟩ front x hx
    rcases List.prefix_concat_iff.1 hx with hall | hshorter
    · obtain ⟨rfl, hd⟩ := List.append_inj' hall rfl
      obtain rfl := (List.cons.inj hd).1
      exact hlast
    · exact hfree front x hshorter

/-- Nothing is in the way exactly when no event is reserved and none occurs twice. -/
theorem free_iff : Free reserved walk ↔ (walk.map Prod.fst).Nodup ∧ ∀ e ∈ walk, e.1 ∉ reserved := by
  induction walk using List.reverseRecOn with
  | nil => simp [Free]
  | append_singleton walk d ih =>
    rw [free_concat, ih, Taken, not_or, List.map_append, List.map_singleton, ← List.concat_eq_append,
      List.nodup_concat]
    constructor
    · rintro ⟨⟨hnodup, hnew⟩, hreserved, hd⟩
      refine ⟨⟨hd, hnodup⟩, fun e he => ?_⟩
      rcases List.mem_append.1 he with he | he
      · exact hnew e he
      · rw [List.mem_singleton.1 he]
        exact hreserved
    · rintro ⟨⟨hd, hnodup⟩, hnew⟩
      exact ⟨⟨hnodup, fun e he => hnew e (List.mem_append_left _ he)⟩,
        hnew d (List.mem_append_right _ List.mem_cons_self), hd⟩

/-- an event that was declared in a free walk was declared there once -/
theorem Free.filter_eq {event first : String} (h : Free reserved walk) (hd : (event, first) ∈ walk) :
    walk.filter (fun d => d.1 = event) = [(event, first)] := by
  have hnodup := (free_iff.1 h).1
  refine List.perm_singleton.1 ((List.perm_ext_iff_of_nodup ((List.Nodup.of_map _ hnodup).filter _)
    (List.nodup_singleton _)).2 fun x => ?_)
  rw [List.mem_filter, decide_eq_true_eq, List.mem_singleton]
  constructor
  · rintro ⟨hx, rfl⟩
    exact List.inj_on_of_nodup_map hnodup hx hd rfl
  · rintro rfl
    exact ⟨hd, rfl⟩

theorem mem_of_filter_eq {event first : String} (h : walk.filter (fun d => d.1 = event) = [(event, first)]) :
    (event, first) ∈ walk := List.mem_of_mem_filter (h ▸ List.mem_cons_self)

/-- Where something is in the way, there is a first declaration that is. -/
theorem exists_stopsAt (h : ¬Free reserved walk) : ∃ event first second, StopsAt reserved walk event first second := by
  induction walk using List.reverseRecOn with
  | nil => exact absurd (free_iff.2 (by simp)) h
  | append_singleton walk d ih =>
    by_cases hfree : Free reserved walk
    · have htaken : Taken reserved walk d.1 := by
        by_contra hlast
        exact h (free_concat.2 ⟨hfree, hlast⟩)
      by_cases hreserved : d.1 ∈ reserved
      · exact ⟨d.1, builtinOrigin, d.2, walk, List.prefix_refl _, hfree, Or.inl ⟨hreserved, rfl⟩⟩
      · obtain ⟨⟨event, first⟩, hd, rfl⟩ := List.mem_map.1 (htaken.resolve_left hreserved)
        exact ⟨d.1, first, d.2, walk, List.prefix_refl _, hfree, Or.inr ⟨hreserved, hfree.filter_eq hd⟩⟩
    · obtain ⟨event, first, second, before, hbefore, hstops⟩ := ih hfree
      exact ⟨event, first, second, before, hbefore.trans (List.prefix_append _ _), hstops⟩

end Walk

/-! ## The collection -/

section Collection

variable {reserved : List String}

/-- one declaration that is not in the way is collected -/
theorem collect_cons {l : Ledger String String} {d : String × String} (rest : List (String × String))
    (h : ¬Taken reserved l.entries d.1) :
    collect reserved l (d :: rest) = collect reserved (l.put d.1 d.2) rest ∧
      (l.put d.1 d.2).entries = l.entries ++ [d] := by
  obtain ⟨hreserved, hnew⟩ := not_or.1 h
  refine ⟨?_, Ledger.entries_put_of_not_mem d.2 hnew⟩
  rw [collect, List.contains_eq_mem, if_neg (by simpa using hreserved), Ledger.get?_eq_none_iff.2 hnew]

/-- **The first declaration in the way.** The collection walks up to it, and reports it whatever follows. -/
theorem collect_stops {walk : List (String × String)} {event first second : String}
    (h : StopsAt reserved walk event first second) :
    collect reserved {} walk = .error (.duplicateEvent event first second) := by
  obtain ⟨before, ⟨after, rfl⟩, hfree, htaken⟩ := h
  -- by induction on what is still ahead of the declaration, with what has been collected in front of it
  suffices haway : ∀ (ahead : List (String × String)) (l : Ledger String String), l.entries ++ ahead = before →
      collect reserved l (ahead ++ (event, second) :: after) = .error (.duplicateEvent event first second) by
    rw [List.append_assoc]
    exact haway before {} rfl
  intro ahead
  induction ahead with
  | nil =>
    intro l hl
    rw [List.append_nil] at hl
    rw [List.nil_append, collect, List.contains_eq_mem]
    rcases htaken with ⟨hreserved, rfl⟩ | ⟨hreserved, honly⟩
    · rw [if_pos (decide_eq_true hreserved)]
    · have hmem : (event, first) ∈ l.entries := hl ▸ mem_of_filter_eq honly
      rw [if_neg (by simpa using hreserved), Ledger.get?_eq_some_iff.2 hmem]
  | cons d ahead ih =>
    intro l hl
    have hd : ¬Taken reserved l.entries d.1 := hfree l.entries d ⟨ahead, by rw [List.append_assoc]; exact hl⟩
    obtain ⟨hstep, hentries⟩ := collect_cons (ahead ++ (event, second) :: after) hd
    rw [List.cons_append, hstep]
    exact ih _ (by rw [hentries, List.append_assoc]; exact hl)

end Collection

/-! ## The numbering -/

section Numbering

variable {snapshot : List Context} {order : IdOrder} {builtins : List BuiltinEvent}

/-- the events of a free walk are collected, and every declaration with them -/
theorem origins_of_free (h : Free (builtins.map BuiltinEvent.key) (declarations snapshot)) :
    ∃ found, origins snapshot builtins = .ok found ∧ found.entries = declarations snapshot := by
  obtain ⟨hnodup, hnew⟩ := free_iff.1 h
  obtain ⟨found, hfound⟩ := exists_collect (l := {}) hnodup hnew
  exact ⟨found, hfound, origins_entries hfound⟩

theorem origins_of_stopsAt {event first second : String}
    (h : StopsAt (builtins.map BuiltinEvent.key) (declarations snapshot) event first second) :
    origins snapshot builtins = .error (.duplicateEvent event first second) := collect_stops h

/-- a table that cannot be made is refused as invalid, and not for a declaration -/
theorem tabulate_error {pairs : List (String × Int)} {found : Ledger String String} {f : Fault}
    (h : tabulate pairs found = .error f) : ∃ cause, f = .invalid cause := by
  simp only [tabulate, IdTable.make] at h
  split at h
  · split at h
    · cases h
      exact ⟨_, rfl⟩
    · split at h
      · cases h
        exact ⟨_, rfl⟩
      · cases h
  · cases h
    exact ⟨_, rfl⟩

/-- what a declaration stops the collection with stops the numbering, and nothing else does -/
theorem assign_error_iff {event first second : String} :
    assign snapshot order builtins = .error (.duplicateEvent event first second) ↔
      origins snapshot builtins = .error (.duplicateEvent event first second) := by
  refine ⟨fun h => ?_, assign_of_fault⟩
  cases horigins : origins snapshot builtins with
  | ok found =>
    rw [assign_of_origins horigins] at h
    obtain ⟨cause, hcause⟩ := tabulate_error h
    cases hcause
  | error f =>
    rw [assign_of_fault horigins] at h
    cases h
    rfl

/-- the collection stops for a declaration exactly when it is the first in the way -/
theorem origins_error_iff {event first second : String} :
    origins snapshot builtins = .error (.duplicateEvent event first second) ↔
      StopsAt (builtins.map BuiltinEvent.key) (declarations snapshot) event first second := by
  refine ⟨fun h => ?_, origins_of_stopsAt⟩
  by_cases hfree : Free (builtins.map BuiltinEvent.key) (declarations snapshot)
  · obtain ⟨found, hfound, -⟩ := origins_of_free hfree
    rw [hfound] at h
    cases h
  · obtain ⟨event', first', second', hstops⟩ := exists_stopsAt hfree
    rw [origins_of_stopsAt hstops] at h
    cases h
    exact hstops

/-- the report of a declaration in the way passes the checks on its own fields -/
theorem StopsAt.raised {event first second : String}
    (h : StopsAt (builtins.map BuiltinEvent.key) (declarations snapshot) event first second) :
    Fault.forDuplicateEvent event first second = .ok (.duplicateEvent event first second) := by
  obtain ⟨before, hbefore, -, htaken⟩ := h
  have hsecond : (event, second) ∈ declarations snapshot :=
    hbefore.subset (List.mem_append_right _ List.mem_cons_self)
  have hfirst : first ≠ "" := by
    rcases htaken with ⟨-, rfl⟩ | ⟨-, honly⟩
    · decide
    · exact (ne_empty_of_declared (hbefore.subset (List.mem_append_left _ (mem_of_filter_eq honly)))).2
  rw [Fault.forDuplicateEvent, if_neg (ne_empty_of_declared hsecond).1, if_neg hfirst,
    if_neg (ne_empty_of_declared hsecond).2]

end Numbering

/-- **Declarations in the way.** In the walk over the contexts of a snapshot and their handlers, the numbering stops for
a declaration exactly when the event of one is built in or was declared before, whatever else is wrong with the built-in
events. What it then reports, as a fault that passes its own checks, is the first such declaration: the event, the artifact
that declares it there, and who has it already. The collection of the origins stops for the same declarations, and when it
does not stop, it lists every declaration in the order of the walk, and so every event once. -/
theorem assign_stops_iff (snapshot : List Context) (order : IdOrder) (builtins : List BuiltinEvent) :
    ((∃ event first second, assign snapshot order builtins = .error (.duplicateEvent event first second)) ↔
      ∃ before d, before ++ [d] <+: declarations snapshot ∧ Taken (builtins.map BuiltinEvent.key) before d.1) ∧
    (∀ event first second,
      (assign snapshot order builtins = .error (.duplicateEvent event first second) ↔
        StopsAt (builtins.map BuiltinEvent.key) (declarations snapshot) event first second) ∧
      (assign snapshot order builtins = .error (.duplicateEvent event first second) ↔
        origins snapshot builtins = .error (.duplicateEvent event first second)) ∧
      (assign snapshot order builtins = .error (.duplicateEvent event first second) →
        Fault.forDuplicateEvent event first second = .ok (.duplicateEvent event first second))) ∧
    ((∀ event first second, assign snapshot order builtins ≠ .error (.duplicateEvent event first second)) →
      ∃ found, origins snapshot builtins = .ok found ∧ found.entries = declarations snapshot ∧
        (eventNames snapshot).Nodup) := by
  have hstops : ∀ event first second, assign snapshot order builtins = .error (.duplicateEvent event first second) ↔
      StopsAt (builtins.map BuiltinEvent.key) (declarations snapshot) event first second := fun _ _ _ =>
    assign_error_iff.trans origins_error_iff
  refine ⟨⟨?_, ?_⟩, fun event first second => ⟨hstops event first second, assign_error_iff, fun h => ?_⟩, fun h => ?_⟩
  · rintro ⟨event, first, second, h⟩
    obtain ⟨before, hbefore, -, htaken⟩ := (hstops event first second).1 h
    refine ⟨before, (event, second), hbefore, htaken.imp And.left fun honly => ?_⟩
    exact List.mem_map.2 ⟨(event, first), mem_of_filter_eq honly.2, rfl⟩
  · rintro ⟨before, d, hd, htaken⟩
    obtain ⟨event, first, second, h⟩ := exists_stopsAt fun hfree => hfree before d hd htaken
    exact ⟨event, first, second, (hstops event first second).2 h⟩
  · exact ((hstops event first second).1 h).raised
  · have hfree : Free (builtins.map BuiltinEvent.key) (declarations snapshot) := by
      by_contra hfree
      obtain ⟨event, first, second, hat⟩ := exists_stopsAt hfree
      exact h event first second ((hstops event first second).2 hat)
    obtain ⟨found, hfound, hentries⟩ := origins_of_free hfree
    have hnodup := (free_iff.1 hfree).1
    rw [map_fst_declarations] at hnodup
    exact ⟨found, hfound, hentries, hnodup⟩

end SignalWiring.Assignment
