/-
The table of a snapshot.

`Numbers snapshot order builtins t` says what the table `t` of a snapshot has to be: its two maps are inverse to each
other, built-in events keep their identifiers, the discovered events take the identifiers from `firstDiscovered` on
without a gap, by name or in the order of the snapshot, and each of them leads back to the artifact that declares it.

- `origins_ok_iff`: the events of a snapshot are collected exactly when none occurs twice and none is built in.
- `tabulate_clash`, `exists_tabulate`: a list of pairs in which no name has two identifiers makes a table exactly when no
  identifier has two names; otherwise the two maps differ in size.
- `assign_numbers`: when a snapshot has a table, and that the table numbers the snapshot.
- `discoveredNames_perm`, `discoveredNames_ascending`: the discovered names are the events of the snapshot, by identifier.
- `builtinItems_eq`, `ids_keys_congr`: the built-in items are always the same, and the identifiers in use depend on the
  number of events alone.
- `assign_clash`: beside the engine's events the numbering is stopped by two events that clash, and by nothing else.
- `assign_sorted_congr`: numbered by name, the table depends on the declarations and not on their order.
-/
import Mathlib.Data.String.Basic
import SignalWiring.Assignment
import SignalWiring.Proofs.Ledger

namespace SignalWiring

/-! ## Making a table -/

namespace IdTable

theorem make_parts {names : Ledger String Int} {ids : Ledger Int String} {origins : Ledger String String} {t : IdTable}
    (h : make names ids origins = .ok t) : t.names = names ∧ t.ids = ids ∧ t.origins = origins := by
  simp only [make] at h
  split at h
  · split at h
    · cases h
    · split at h
      · cases h
      · cases h; exact ⟨rfl, rfl, rfl⟩
  · cases h

theorem exists_make {names : Ledger String Int} {ids : Ledger Int String} {origins : Ledger String String}
    (hs : names.size = ids.size) (hr : ∀ e ∈ names.entries, ids.get? e.2 = some e.1)
    (ho : ∀ n ∈ origins.keys, firstDiscovered ≤ (names.get? n).getD 0) : ∃ t, make names ids origins = .ok t := by
  simp only [make]
  rw [dif_pos hs]
  split
  · rename_i e he
    have hne := List.find?_some he
    exact absurd (hr e (List.mem_of_find?_eq_some he)) (of_decide_eq_true hne)
  · split
    · rename_i n hn
      have hlt := List.find?_some hn
      exact absurd (ho n (List.mem_of_find?_eq_some hn)) (not_le.2 (of_decide_eq_true hlt))
    · exact ⟨_, rfl⟩

end IdTable

namespace Assignment

/-- the events of a snapshot, in the order of the snapshot and then of declaration -/
def eventNames (snapshot : List Context) : List String := snapshot.flatMap Context.events

theorem map_fst_declarations (snapshot : List Context) : (declarations snapshot).map Prod.fst = eventNames snapshot := by
  simp only [declarations, eventNames, List.map_flatMap, List.map_map]
  rfl

theorem mem_declarations {snapshot : List Context} {n a : String} :
    (n, a) ∈ declarations snapshot ↔ ∃ c ∈ snapshot, n ∈ c.events ∧ c.artifact = a := by
  simp only [declarations, List.mem_flatMap, List.mem_map, Prod.mk.injEq, Context.events]
  constructor
  · rintro ⟨c, hc, h, hh, rfl, rfl⟩
    exact ⟨c, hc, ⟨h, hh, rfl⟩, rfl⟩
  · rintro ⟨c, hc, ⟨h, hh, rfl⟩, rfl⟩
    exact ⟨c, hc, h, hh, rfl, rfl⟩

/-! ## Collecting the events -/

theorem collect_entries {reserved : List String} {l l' : Ledger String String} {pairs : List (String × String)}
    (h : collect reserved l pairs = .ok l') :
    l'.entries = l.entries ++ pairs ∧ ∀ e ∈ pairs, e.1 ∉ reserved := by
  induction pairs generalizing l with
  | nil =>
    simp only [collect, Except.ok.injEq] at h
    simp [h]
  | cons e rest ih =>
    simp only [collect] at h
    split at h
    · cases h
    · rename_i hr
      split at h
      · cases h
      · rename_i hg
        obtain ⟨he, hrest⟩ := ih h
        refine ⟨?_, fun x hx => ?_⟩
        · rw [he, Ledger.entries_put_of_not_mem _ (Ledger.get?_eq_none_iff.1 hg), List.append_assoc]
          rfl
        · rcases List.mem_cons.1 hx with rfl | hx
          · simpa using hr
          · exact hrest x hx

theorem exists_collect {reserved : List String} {l : Ledger String String} {pairs : List (String × String)}
    (hn : ((l.entries ++ pairs).map Prod.fst).Nodup) (hr : ∀ e ∈ pairs, e.1 ∉ reserved) :
    ∃ l', collect reserved l pairs = .ok l' := by
  induction pairs generalizing l with
  | nil => exact ⟨l, rfl⟩
  | cons e rest ih =>
    have hk : e.1 ∉ l.keys := by
      intro hk
      rw [List.map_append, List.nodup_append] at hn
      exact hn.2.2 _ hk _ (by simp) rfl
    have hl := Ledger.entries_put_of_not_mem e.2 hk
    obtain ⟨l', hl'⟩ := ih (l := l.put e.1 e.2) (by rw [hl]; simpa using hn)
      (fun x hx => hr x (List.mem_cons_of_mem _ hx))
    exact ⟨l', by simp [collect, hr e List.mem_cons_self, Ledger.get?_eq_none_iff.2 hk, hl']⟩

theorem collect_clash {reserved : List String} {l : Ledger String String} {pairs : List (String × String)} {f : Fault}
    (h : collect reserved l pairs = .error f) : ∃ event first second, f = .duplicateEvent event first second ∧
      (event ∈ reserved ∧ first = builtinOrigin ∧ (event, second) ∈ pairs ∨
        [(event, first), (event, second)].Sublist (l.entries ++ pairs)) := by
  induction pairs generalizing l with
  | nil => cases h
  | cons e rest ih =>
    simp only [collect] at h
    split at h
    · rename_i hreserved
      cases h
      exact ⟨e.1, builtinOrigin, e.2, rfl, Or.inl ⟨by simpa using hreserved, rfl, List.mem_cons_self⟩⟩
    · split at h
      · rename_i first hfirst
        cases h
        have hbefore : [(e.1, first)].Sublist l.entries := List.singleton_sublist.2 (Ledger.get?_eq_some_iff.1 hfirst)
        have hafter : [(e.1, e.2)].Sublist (e :: rest) := List.singleton_sublist.2 List.mem_cons_self
        exact ⟨e.1, first, e.2, rfl, Or.inr (hbefore.append hafter)⟩
      · rename_i hnew
        obtain ⟨event, first, second, hf, hclash⟩ := ih h
        refine ⟨event, first, second, hf, hclash.imp (fun hbuiltin => ?_) fun htwice => ?_⟩
        · exact ⟨hbuiltin.1, hbuiltin.2.1, List.mem_cons_of_mem _ hbuiltin.2.2⟩
        · rw [Ledger.entries_put_of_not_mem _ (Ledger.get?_eq_none_iff.1 hnew), List.append_assoc] at htwice
          exact htwice

theorem origins_entries {snapshot : List Context} {builtins : List BuiltinEvent} {l : Ledger String String}
    (h : origins snapshot builtins = .ok l) : l.entries = declarations snapshot := by
  simpa using (collect_entries h).1

theorem origins_keys {snapshot : List Context} {builtins : List BuiltinEvent} {l : Ledger String String}
    (h : origins snapshot builtins = .ok l) : l.keys = eventNames snapshot := by
  rw [Ledger.keys, origins_entries h, map_fst_declarations]

/-- The events of a snapshot are collected exactly when none occurs twice and none has the key of a built-in one. -/
theorem origins_ok_iff {snapshot : List Context} {builtins : List BuiltinEvent} :
    (∃ l, origins snapshot builtins = .ok l) ↔
      (eventNames snapshot).Nodup ∧ ∀ n ∈ eventNames snapshot, n ∉ builtins.map BuiltinEvent.key := by
  rw [← map_fst_declarations]
  constructor
  · rintro ⟨l, hl⟩
    obtain ⟨he, hr⟩ := collect_entries hl
    refine ⟨?_, fun n hn => ?_⟩
    · have hd := l.distinct
      rw [he] at hd
      simpa using hd
    · obtain ⟨e, hm, rfl⟩ := List.mem_map.1 hn
      exact hr e hm
  · rintro ⟨hn, hr⟩
    exact exists_collect (by simpa using hn) fun e he => hr e.1 (List.mem_map_of_mem he)

/-! ## Arranging and numbering -/

theorem arrange_perm (order : IdOrder) (names : List String) : (arrange order names).Perm names := by
  cases order with
  | sorted => exact List.mergeSort_perm _ _
  | discovery => exact List.Perm.refl _

theorem arrange_sorted_lt {names : List String} (h : names.Nodup) : (arrange .sorted names).Pairwise (· < ·) := by
  have hle : (arrange .sorted names).Pairwise fun a b => decide (a ≤ b) = true :=
    List.pairwise_mergeSort (fun a b c => by simpa only [decide_eq_true_eq] using le_trans)
      (fun a b => by simpa only [Bool.or_eq_true, decide_eq_true_eq] using le_total a b) _
  have hne := (arrange_perm .sorted names).nodup_iff.2 h
  exact (hle.and hne).imp fun h => lt_of_le_of_ne (of_decide_eq_true h.1) h.2

/-- Names that are arranged by name come out the same from every order. -/
theorem arrange_sorted_congr {names others : List String} (h : names.Perm others) (hn : names.Nodup) :
    arrange .sorted names = arrange .sorted others := by
  have hp := (arrange_perm .sorted names).trans (h.trans (arrange_perm .sorted others).symm)
  exact hp.eq_of_pairwise (fun a b _ _ hab hba => absurd hba (lt_asymm hab)) (arrange_sorted_lt hn)
    (arrange_sorted_lt (h.nodup_iff.1 hn))

/-- In an ascending list the place of an item is the number of smaller ones. -/
theorem idxOf_eq_countP {names : List String} (h : names.Pairwise (· < ·)) {n : String} (hn : n ∈ names) :
    names.idxOf n = names.countP fun m => decide (m < n) := by
  induction names with
  | nil => cases hn
  | cons x rest ih =>
    have hx := List.pairwise_cons.1 h
    by_cases hxn : x = n
    · subst hxn
      have h0 : rest.countP (fun m => decide (m < x)) = 0 := by
        rw [List.countP_eq_zero]
        intro m hm
        simpa only [decide_eq_true_eq] using lt_asymm (hx.1 m hm)
      rw [List.idxOf_cons_self, List.countP_cons, h0, decide_eq_false (lt_irrefl x)]
      rfl
    · have hr : n ∈ rest := (List.mem_cons.1 hn).resolve_left (Ne.symm hxn)
      rw [List.idxOf_cons_ne _ hxn, List.countP_cons, ih hx.2 hr, decide_eq_true (hx.1 n hr)]
      rfl

theorem map_fst_numbered (names : List String) : (numbered names).map Prod.fst = names := by
  simp only [numbered, List.map_map]
  exact List.zipIdx_map_fst 0 names

theorem mem_numbered {names : List String} {n : String} {i : Int} :
    (n, i) ∈ numbered names ↔ ∃ k : ℕ, names[k]? = some n ∧ i = firstDiscovered + k := by
  simp only [numbered, List.mem_map, Prod.mk.injEq, Prod.exists, List.mem_zipIdx_iff_getElem?]
  constructor
  · rintro ⟨m, k, hk, rfl, rfl⟩
    exact ⟨k, hk, rfl⟩
  · rintro ⟨k, hk, rfl⟩
    exact ⟨n, k, hk, rfl, rfl⟩

/-- the identifiers of the numbered names are a block without a gap -/
theorem exists_mem_numbered {names : List String} {i : Int} :
    (∃ n, (n, i) ∈ numbered names) ↔ firstDiscovered ≤ i ∧ i < firstDiscovered + names.length := by
  simp only [mem_numbered]
  constructor
  · rintro ⟨n, k, hk, rfl⟩
    have hlt := (List.getElem?_eq_some_iff.1 hk).1
    omega
  · rintro ⟨hlo, hhi⟩
    have hk : (i - firstDiscovered).toNat < names.length := by omega
    exact ⟨names[(i - firstDiscovered).toNat], _, List.getElem?_eq_getElem hk, by omega⟩

theorem mem_numbered_idxOf {names : List String} (h : names.Nodup) {n : String} {i : Int} :
    (n, i) ∈ numbered names ↔ n ∈ names ∧ i = firstDiscovered + names.idxOf n := by
  rw [mem_numbered]
  constructor
  · rintro ⟨k, hk, rfl⟩
    obtain ⟨hlt, rfl⟩ := List.getElem?_eq_some_iff.1 hk
    exact ⟨List.getElem_mem hlt, by rw [h.idxOf_getElem]⟩
  · rintro ⟨hn, rfl⟩
    exact ⟨_, List.getElem?_idxOf hn, rfl⟩

/-! ## Tables of pairs -/

/-- the pairs the other way round -/
def flipped (pairs : List (String × Int)) : List (Int × String) := pairs.map fun e => (e.2, e.1)

theorem mem_flipped {pairs : List (String × Int)} {i : Int} {n : String} :
    (i, n) ∈ flipped pairs ↔ (n, i) ∈ pairs := by
  simp [flipped]

theorem size_ofList_of_functional {pairs : List (String × Int)} (h : Ledger.Functional pairs) :
    (Ledger.ofList pairs).size = pairs.toFinset.card := by
  have himage : (pairs.map Prod.fst).toFinset = pairs.toFinset.image Prod.fst := by
    ext n
    simp
  have hinj : Set.InjOn Prod.fst (pairs.toFinset : Set (String × Int)) := by
    intro e he f hf hef
    exact h e (by simpa using he) f (by simpa using hf) hef
  rw [Ledger.size_ofList, himage, Finset.card_image_of_injOn hinj]

theorem size_ofList_flipped (pairs : List (String × Int)) :
    (Ledger.ofList (flipped pairs)).size = (pairs.toFinset.image Prod.snd).card := by
  have himage : ((flipped pairs).map Prod.fst).toFinset = pairs.toFinset.image Prod.snd := by
    ext i
    simp [flipped]
  rw [Ledger.size_ofList, himage]

/-- The two maps have the same size only if no identifier has two names. -/
theorem functional_flipped_of_size {pairs : List (String × Int)} (h : Ledger.Functional pairs)
    (hs : (Ledger.ofList pairs).size = (Ledger.ofList (flipped pairs)).size) : Ledger.Functional (flipped pairs) := by
  rw [size_ofList_of_functional h, size_ofList_flipped, eq_comm, Finset.card_image_iff] at hs
  rintro ⟨i, m⟩ hm ⟨j, n⟩ hn hij
  rw [mem_flipped] at hm hn
  have he := hs (by simpa using hm) (by simpa using hn) hij
  simp only [Prod.mk.injEq] at he
  rw [he.1, he.2]

theorem size_eq_of_functional {pairs : List (String × Int)} (h : Ledger.Functional pairs)
    (hb : Ledger.Functional (flipped pairs)) : (Ledger.ofList pairs).size = (Ledger.ofList (flipped pairs)).size := by
  rw [size_ofList_of_functional h, size_ofList_flipped, eq_comm]
  apply Finset.card_image_of_injOn
  rintro ⟨m, i⟩ hm ⟨n, j⟩ hn hij
  have he := hb (i, m) (mem_flipped.2 (by simpa using hm)) (j, n) (mem_flipped.2 (by simpa using hn)) hij
  simp only [Prod.mk.injEq] at he
  rw [he.1, he.2]

theorem tabulate_parts {pairs : List (String × Int)} {declared : Ledger String String} {t : IdTable}
    (h : tabulate pairs declared = .ok t) :
    t.names = Ledger.ofList pairs ∧ t.ids = (Ledger.ofList (flipped pairs)).sortKeys (fun a b => decide (a ≤ b)) ∧
      t.origins = declared := IdTable.make_parts h

/-- An identifier with two names makes the two maps differ in size, and that is what is found wrong. -/
theorem tabulate_clash {pairs : List (String × Int)} (h : Ledger.Functional pairs)
    (hb : ¬ Ledger.Functional (flipped pairs)) (declared : Ledger String String) :
    ∃ names ids, tabulate pairs declared = .error (.invalid (.sizesDiffer names ids)) := by
  have hs : ¬ (Ledger.ofList pairs).size =
      ((Ledger.ofList (flipped pairs)).sortKeys fun a b => decide (a ≤ b)).size := by
    rw [Ledger.size_sortKeys]
    exact fun hs => hb (functional_flipped_of_size h hs)
  exact ⟨_, _, dif_neg hs⟩

theorem exists_tabulate {pairs : List (String × Int)} {declared : Ledger String String} (h : Ledger.Functional pairs)
    (hb : Ledger.Functional (flipped pairs))
    (hd : ∀ n ∈ declared.keys, ∃ i, (n, i) ∈ pairs ∧ firstDiscovered ≤ i) : ∃ t, tabulate pairs declared = .ok t := by
  apply IdTable.exists_make
  · rw [Ledger.size_sortKeys]
    exact size_eq_of_functional h hb
  · rintro ⟨n, i⟩ he
    rw [Ledger.get?_sortKeys]
    exact (Ledger.get?_ofList hb).2 (mem_flipped.2 ((Ledger.mem_entries_ofList h).1 he))
  · intro n hn
    obtain ⟨i, hi, hlo⟩ := hd n hn
    rw [(Ledger.get?_ofList h).2 hi]
    exact hlo

/-! ## The table of a snapshot -/

/-- no key is given two identifiers -/
def ConsistentKeys (builtins : List BuiltinEvent) : Prop :=
  ∀ b ∈ builtins, ∀ c ∈ builtins, b.key = c.key → b.id = c.id

/-- no identifier of a built-in event is taken twice: neither by another key nor by one of `count` discovered events -/
def Separate (builtins : List BuiltinEvent) (count : ℕ) : Prop :=
  (∀ b ∈ builtins, ∀ c ∈ builtins, b.key ≠ c.key → b.id ≠ c.id) ∧
    ∀ b ∈ builtins, ¬ (firstDiscovered ≤ b.id ∧ b.id < firstDiscovered + count)

instance (builtins : List BuiltinEvent) : Decidable (ConsistentKeys builtins) :=
  inferInstanceAs (Decidable (∀ b ∈ builtins, ∀ c ∈ builtins, b.key = c.key → b.id = c.id))

instance (builtins : List BuiltinEvent) (count : ℕ) : Decidable (Separate builtins count) :=
  inferInstanceAs (Decidable (_ ∧ _))

/-- what is tabulated: the built-in block and then the discovered events -/
def blocks (builtins : List BuiltinEvent) (names : List String) : List (String × Int) :=
  builtins.map (fun e => (e.key, e.id)) ++ numbered names

/-- discovered events with their artifacts, in the order in which they are numbered -/
def declared (order : IdOrder) (found : Ledger String String) : Ledger String String :=
  Ledger.ofList ((arrange order found.keys).filterMap fun n => (found.get? n).map fun a => (n, a))

theorem assign_of_origins {snapshot : List Context} {order : IdOrder} {builtins : List BuiltinEvent}
    {found : Ledger String String} (h : origins snapshot builtins = .ok found) :
    assign snapshot order builtins =
      tabulate (blocks builtins (arrange order (eventNames snapshot))) (declared order found) := by
  rw [← origins_keys h, assign, h]
  rfl

theorem assign_of_fault {snapshot : List Context} {order : IdOrder} {builtins : List BuiltinEvent} {f : Fault}
    (h : origins snapshot builtins = .error f) : assign snapshot order builtins = .error f := by
  rw [assign, h]
  rfl

theorem exists_origins_of_assign {snapshot : List Context} {order : IdOrder} {builtins : List BuiltinEvent} {t : IdTable}
    (h : assign snapshot order builtins = .ok t) : ∃ found, origins snapshot builtins = .ok found := by
  cases ho : origins snapshot builtins with
  | ok found => exact ⟨found, rfl⟩
  | error f =>
    rw [assign_of_fault ho] at h
    cases h

theorem mem_blocks {builtins : List BuiltinEvent} {names : List String} {n : String} {i : Int} :
    (n, i) ∈ blocks builtins names ↔ (∃ b ∈ builtins, b.key = n ∧ b.id = i) ∨ (n, i) ∈ numbered names := by
  simp [blocks]

/-- a discovered event is numbered, since it has no built-in key -/
theorem mem_numbered_of_mem_blocks {builtins : List BuiltinEvent} {names : List String} {n : String} {i : Int}
    (hn : n ∉ builtins.map BuiltinEvent.key) (h : (n, i) ∈ blocks builtins names) : (n, i) ∈ numbered names := by
  rcases mem_blocks.1 h with ⟨b, hb, rfl, _⟩ | h
  · exact absurd (List.mem_map_of_mem hb) hn
  · exact h

theorem mem_of_mem_numbered {names : List String} {n : String} {i : Int} (h : (n, i) ∈ numbered names) : n ∈ names := by
  rw [← map_fst_numbered names]
  exact List.mem_map_of_mem h

theorem functional_blocks {builtins : List BuiltinEvent} {names : List String} (hkeys : ConsistentKeys builtins)
    (hnodup : names.Nodup) (hnew : ∀ n ∈ names, n ∉ builtins.map BuiltinEvent.key) :
    Ledger.Functional (blocks builtins names) := by
  rintro ⟨n, i⟩ hi ⟨m, j⟩ hj hnm
  obtain rfl : n = m := hnm
  by_cases hn : n ∈ builtins.map BuiltinEvent.key
  · have hold : ∀ k, (n, k) ∈ blocks builtins names → ∃ b ∈ builtins, b.key = n ∧ b.id = k := fun k hk =>
      (mem_blocks.1 hk).resolve_right fun hk => hnew n (mem_of_mem_numbered hk) hn
    obtain ⟨b, hb, hbn, rfl⟩ := hold i hi
    obtain ⟨c, hc, hcn, rfl⟩ := hold j hj
    rw [hkeys b hb c hc (hbn.trans hcn.symm)]
  · have hi' := (mem_numbered_idxOf hnodup).1 (mem_numbered_of_mem_blocks hn hi)
    have hj' := (mem_numbered_idxOf hnodup).1 (mem_numbered_of_mem_blocks hn hj)
    rw [hi'.2, hj'.2]

theorem functional_flipped_blocks_iff {builtins : List BuiltinEvent} {names : List String}
    (hnew : ∀ n ∈ names, n ∉ builtins.map BuiltinEvent.key) :
    Ledger.Functional (flipped (blocks builtins names)) ↔ Separate builtins names.length := by
  constructor
  · intro h
    have hsame : ∀ n m i, (n, i) ∈ blocks builtins names → (m, i) ∈ blocks builtins names → n = m := fun n m i hn hm =>
      (Prod.mk.inj (h (i, n) (mem_flipped.2 hn) (i, m) (mem_flipped.2 hm) rfl)).2
    refine ⟨fun b hb c hc hne hid => hne ?_, fun b hb hrange => ?_⟩
    · exact hsame b.key c.key b.id (mem_blocks.2 (Or.inl ⟨b, hb, rfl, rfl⟩))
        (mem_blocks.2 (Or.inl ⟨c, hc, rfl, hid.symm⟩))
    · obtain ⟨n, hn⟩ := exists_mem_numbered.2 hrange
      have hkey := hsame n b.key b.id (mem_blocks.2 (Or.inr hn)) (mem_blocks.2 (Or.inl ⟨b, hb, rfl, rfl⟩))
      exact hnew n (mem_of_mem_numbered hn) (hkey ▸ List.mem_map_of_mem hb)
  · rintro ⟨hkeys, hrange⟩ ⟨i, n⟩ hn ⟨j, m⟩ hm hij
    obtain rfl : i = j := hij
    rw [mem_flipped] at hn hm
    have hold : ∀ b ∈ builtins, ∀ k, (k, b.id) ∈ numbered names → False := fun b hb k hk =>
      hrange b hb (exists_mem_numbered.1 ⟨k, hk⟩)
    rcases mem_blocks.1 hn with ⟨b, hb, rfl, rfl⟩ | hn <;> rcases mem_blocks.1 hm with ⟨c, hc, rfl, hid⟩ | hm
    · by_cases hne : b.key = c.key
      · rw [hne]
      · exact absurd hid.symm (hkeys b hb c hc hne)
    · exact (hold b hb m hm).elim
    · exact (hold c hc n (hid ▸ hn)).elim
    · obtain ⟨k, hk, rfl⟩ := mem_numbered.1 hn
      obtain ⟨l, hl, hkl⟩ := mem_numbered.1 hm
      obtain rfl : k = l := by omega
      rw [hk, Option.some.injEq] at hl
      rw [hl]

/-! ### Origins in the order of the identifiers -/

theorem map_fst_filterMap_get? {found : Ledger String String} {names : List String} (h : ∀ n ∈ names, n ∈ found.keys) :
    (names.filterMap fun n => (found.get? n).map fun a => (n, a)).map Prod.fst = names := by
  induction names with
  | nil => rfl
  | cons n rest ih =>
    obtain ⟨a, ha⟩ := Ledger.exists_get?_of_mem (h n List.mem_cons_self)
    rw [List.filterMap_cons, ha, Option.map_some, List.map_cons, ih fun m hm => h m (List.mem_cons_of_mem _ hm)]

theorem entries_declared (order : IdOrder) (found : Ledger String String) :
    (declared order found).entries =
      (arrange order found.keys).filterMap fun n => (found.get? n).map fun a => (n, a) := by
  apply Ledger.entries_ofList
  rw [map_fst_filterMap_get? fun n hn => (arrange_perm order found.keys).subset hn]
  exact (arrange_perm order found.keys).nodup_iff.2 found.keys_nodup

theorem keys_declared (order : IdOrder) (found : Ledger String String) :
    (declared order found).keys = arrange order found.keys := by
  rw [Ledger.keys, entries_declared, map_fst_filterMap_get? fun n hn => (arrange_perm order found.keys).subset hn]

theorem get?_declared (order : IdOrder) (found : Ledger String String) (n : String) :
    (declared order found).get? n = found.get? n := by
  apply Ledger.get?_congr
  rintro ⟨m, a⟩
  rw [entries_declared, List.mem_filterMap, ← Ledger.get?_eq_some_iff]
  constructor
  · rintro ⟨k, _, hk⟩
    obtain ⟨b, hb, hab⟩ := Option.map_eq_some_iff.1 hk
    cases hab
    exact hb
  · intro hm
    have hkey : m ∈ found.keys := Ledger.mem_keys.2 ⟨a, Ledger.get?_eq_some_iff.1 hm⟩
    exact ⟨m, (arrange_perm order found.keys).mem_iff.2 hkey, by rw [hm]; rfl⟩

/-! ### What the table is -/

/-- what the table of a snapshot has to be -/
structure Numbers (snapshot : List Context) (order : IdOrder) (builtins : List BuiltinEvent) (t : IdTable) : Prop where
  /-- the two maps are inverse to each other -/
  inverse : ∀ n i, t.names.get? n = some i ↔ t.ids.get? i = some n
  /-- a built-in event keeps its identifier -/
  builtin : ∀ b ∈ builtins, t.names.get? b.key = some b.id
  /-- what is in the table is built in or discovered -/
  known : ∀ n i, t.names.get? n = some i → (∃ b ∈ builtins, b.key = n ∧ b.id = i) ∨ n ∈ eventNames snapshot
  /-- the discovered events take exactly the identifiers from `firstDiscovered` on, without a gap -/
  block : ∀ i, (firstDiscovered ≤ i ∧ i < firstDiscovered + (eventNames snapshot).length) ↔
    ∃ n ∈ eventNames snapshot, t.names.get? n = some i
  /-- by name, an event comes after all that are smaller -/
  sorted : order = .sorted → ∀ n ∈ eventNames snapshot,
    t.names.get? n = some (firstDiscovered + (eventNames snapshot).countP fun m => decide (m < n))
  /-- by discovery, an event stands where the snapshot has it -/
  discovery : order = .discovery → ∀ n ∈ eventNames snapshot,
    t.names.get? n = some (firstDiscovered + (eventNames snapshot).idxOf n)
  /-- the identifiers ascend -/
  ascending : t.ids.keys.Pairwise (· < ·)
  /-- the origin of an event is the one artifact that declares it -/
  origin : ∀ n a, t.origins.get? n = some a ↔ ∃ c ∈ snapshot, n ∈ c.events ∧ c.artifact = a
  /-- origins stand in the order of the identifiers -/
  origins_order : t.origins.keys.map t.names.get? =
    (List.range (eventNames snapshot).length).map fun k : ℕ => some (firstDiscovered + k)

variable {snapshot : List Context} {order : IdOrder} {builtins : List BuiltinEvent} {t : IdTable}

/-- a table that was made numbers its snapshot -/
theorem numbers_of_assign (hkeys : ConsistentKeys builtins) (h : assign snapshot order builtins = .ok t) :
    Numbers snapshot order builtins t := by
  obtain ⟨found, hfound⟩ := exists_origins_of_assign h
  obtain ⟨hnodup, hnew⟩ := origins_ok_iff.1 ⟨found, hfound⟩
  have hperm := arrange_perm order (eventNames snapshot)
  rw [assign_of_origins hfound] at h
  obtain ⟨hnames, hids, horigins⟩ := tabulate_parts h
  set names := arrange order (eventNames snapshot) with harranged
  have hnodup' : names.Nodup := hperm.nodup_iff.2 hnodup
  have hnew' : ∀ n ∈ names, n ∉ builtins.map BuiltinEvent.key := fun n hn => hnew n (hperm.subset hn)
  have hfun := functional_blocks hkeys hnodup' hnew'
  have hflip : Ledger.Functional (flipped (blocks builtins names)) := by
    apply functional_flipped_of_size hfun
    rw [← hnames, t.sizes_eq, hids, Ledger.size_sortKeys]
  have hget : ∀ n i, t.names.get? n = some i ↔ (n, i) ∈ blocks builtins names := fun n i => by
    rw [hnames, Ledger.get?_ofList hfun]
  have hnum : ∀ n ∈ eventNames snapshot, t.names.get? n = some (firstDiscovered + names.idxOf n) := fun n hn =>
    (hget n _).2 (mem_blocks.2 (Or.inr ((mem_numbered_idxOf hnodup').2 ⟨hperm.mem_iff.2 hn, rfl⟩)))
  constructor
  · intro n i
    rw [hget, hids, Ledger.get?_sortKeys, Ledger.get?_ofList hflip, mem_flipped]
  · intro b hb
    exact (hget b.key b.id).2 (mem_blocks.2 (Or.inl ⟨b, hb, rfl, rfl⟩))
  · intro n i hi
    exact (mem_blocks.1 ((hget n i).1 hi)).imp id fun hn => hperm.subset (mem_of_mem_numbered hn)
  · intro i
    rw [← hperm.length_eq, ← exists_mem_numbered]
    constructor
    · rintro ⟨n, hn⟩
      exact ⟨n, hperm.subset (mem_of_mem_numbered hn), (hget n i).2 (mem_blocks.2 (Or.inr hn))⟩
    · rintro ⟨n, hn, hi⟩
      exact ⟨n, mem_numbered_of_mem_blocks (hnew n hn) ((hget n i).1 hi)⟩
  · rintro rfl n hn
    rw [hnum n hn, idxOf_eq_countP (arrange_sorted_lt hnodup) (hperm.mem_iff.2 hn), hperm.countP_eq]
  · rintro rfl n hn
    exact hnum n hn
  · rw [hids]
    exact Ledger.keys_sortKeys_lt _
  · intro n a
    rw [horigins, get?_declared, Ledger.get?_eq_some_iff, origins_entries hfound, mem_declarations]
  · rw [horigins, keys_declared, origins_keys hfound, ← harranged, ← hperm.length_eq]
    apply List.ext_getElem
    · simp
    · intro k hk _
      have hlt : k < names.length := by simpa using hk
      have hn : names[k] ∈ eventNames snapshot := hperm.subset (List.getElem_mem hlt)
      simp only [List.getElem_map, List.getElem_range]
      rw [hnum _ hn, hnodup'.idxOf_getElem]

/-- every event of the snapshot is in the table -/
theorem Numbers.mem_keys (h : Numbers snapshot order builtins t) {n : String} (hn : n ∈ eventNames snapshot) :
    n ∈ t.names.keys := by
  cases order with
  | sorted => exact Ledger.mem_keys.2 ⟨_, Ledger.get?_eq_some_iff.1 (h.sorted rfl n hn)⟩
  | discovery => exact Ledger.mem_keys.2 ⟨_, Ledger.get?_eq_some_iff.1 (h.discovery rfl n hn)⟩

/-- an item of a table that numbers a snapshot is a name with its identifier -/
theorem Numbers.mem_items (h : Numbers snapshot order builtins t) {i : Int} {n : String} :
    (i, n) ∈ t.items ↔ t.names.get? n = some i := by
  rw [h.inverse, Ledger.get?_eq_some_iff]
  rfl

/-- the items stand in ascending order of their identifiers -/
theorem Numbers.items_ascending (h : Numbers snapshot order builtins t) : t.items.Pairwise fun e f => e.1 < f.1 :=
  List.pairwise_map.1 h.ascending

/-- a snapshot without repeated or built-in events has a table exactly when the built-in block keeps apart -/
theorem exists_assign_iff (hkeys : ConsistentKeys builtins) (hnodup : (eventNames snapshot).Nodup)
    (hnew : ∀ n ∈ eventNames snapshot, n ∉ builtins.map BuiltinEvent.key) :
    ((∃ t, assign snapshot order builtins = .ok t) ↔ Separate builtins (eventNames snapshot).length) ∧
      (¬ Separate builtins (eventNames snapshot).length →
        ∃ cause, assign snapshot order builtins = .error (.invalid cause)) := by
  obtain ⟨found, hfound⟩ := origins_ok_iff.2 ⟨hnodup, hnew⟩
  have hperm := arrange_perm order (eventNames snapshot)
  have hnodup' := hperm.nodup_iff.2 hnodup
  have hfun := functional_blocks hkeys hnodup' fun n hn => hnew n (hperm.subset hn)
  have hiff : Ledger.Functional (flipped (blocks builtins (arrange order (eventNames snapshot)))) ↔ _ :=
    functional_flipped_blocks_iff fun n hn => hnew n (hperm.subset hn)
  rw [assign_of_origins hfound, ← hperm.length_eq, ← hiff]
  have hclash : ¬ Ledger.Functional (flipped (blocks builtins (arrange order (eventNames snapshot)))) →
      ∃ cause, tabulate (blocks builtins (arrange order (eventNames snapshot))) (declared order found) =
        .error (.invalid cause) := fun hb => by
    obtain ⟨m, n, hmn⟩ := tabulate_clash hfun hb (declared order found)
    exact ⟨_, hmn⟩
  refine ⟨⟨?_, fun hb => ?_⟩, hclash⟩
  · rintro ⟨t, ht⟩
    by_contra hb
    obtain ⟨cause, hcause⟩ := hclash hb
    rw [hcause] at ht
    cases ht
  · apply exists_tabulate hfun hb
    intro n hn
    rw [keys_declared, origins_keys hfound] at hn
    exact ⟨_, mem_blocks.2 (Or.inr ((mem_numbered_idxOf hnodup').2 ⟨hn, rfl⟩)), by omega⟩

/-- **The table of a snapshot.** With no event declared twice or built in, there is a table exactly when the identifiers
of the built-in events are taken by nothing else, and otherwise the tabulation is refused as invalid. Every table that is
made numbers the snapshot. -/
theorem assign_numbers (snapshot : List Context) (order : IdOrder) (builtins : List BuiltinEvent)
    (hkeys : ConsistentKeys builtins) :
    ((eventNames snapshot).Nodup → (∀ n ∈ eventNames snapshot, n ∉ builtins.map BuiltinEvent.key) →
      ((∃ t, assign snapshot order builtins = .ok t) ↔ Separate builtins (eventNames snapshot).length) ∧
        (¬ Separate builtins (eventNames snapshot).length →
          ∃ cause, assign snapshot order builtins = .error (.invalid cause))) ∧
      ∀ t, assign snapshot order builtins = .ok t → Numbers snapshot order builtins t :=
  ⟨fun hnodup hnew => exists_assign_iff hkeys hnodup hnew, fun _ ht => numbers_of_assign hkeys ht⟩

/-! ### Two discovered events beside a block of three -/

namespace Sample

def died : Handler := ⟨"DiedEventHandler", "Died", [], none, by decide, by decide, by decide, by decide⟩

def jumped : Handler := ⟨"JumpedEventHandler", "Jumped", ["height"], none, by decide, by decide, by decide, by decide⟩

/-- two artifacts, the one that comes later by name discovered first -/
def artifacts : List Context := [⟨"Game", "Foo.cs", [jumped], by decide⟩, ⟨"", "Bar.cs", [died], by decide⟩]

/-- a block with one key given twice and identifiers beyond the discovered ones -/
def engine : List BuiltinEvent :=
  [{ id := 13, key := "paused", owner := "Node", member := "Paused" },
   { id := 13, key := "paused", owner := "Node", member := "Paused" },
   { id := 12, key := "resumed", owner := "Node", member := "Resumed" }]

end Sample

theorem assign_numbers_sample :
    ConsistentKeys Sample.engine ∧ (eventNames Sample.artifacts).Nodup ∧
      (∀ n ∈ eventNames Sample.artifacts, n ∉ Sample.engine.map BuiltinEvent.key) ∧
      Separate Sample.engine (eventNames Sample.artifacts).length ∧
      ∃ t, assign Sample.artifacts .sorted Sample.engine = .ok t ∧ Numbers Sample.artifacts .sorted Sample.engine t := by
  have hkeys : ConsistentKeys Sample.engine := by decide
  have hnodup : (eventNames Sample.artifacts).Nodup := by decide
  have hnew : ∀ n ∈ eventNames Sample.artifacts, n ∉ Sample.engine.map BuiltinEvent.key := by decide
  have hsep : Separate Sample.engine (eventNames Sample.artifacts).length := by decide
  obtain ⟨hex, hnum⟩ := assign_numbers Sample.artifacts .sorted Sample.engine hkeys
  obtain ⟨t, ht⟩ := (hex hnodup hnew).1.2 hsep
  exact ⟨hkeys, hnodup, hnew, hsep, t, ht, hnum t ht⟩

/-! ## The engine's own events -/

theorem consistentKeys_all : ConsistentKeys BuiltinEvent.all := by decide

theorem id_lt_firstDiscovered : ∀ b ∈ BuiltinEvent.all, b.id < firstDiscovered := by decide

theorem separate_all (count : ℕ) : Separate BuiltinEvent.all count := by
  refine ⟨by decide, fun b hb hrange => ?_⟩
  exact absurd hrange.1 (not_le.2 (id_lt_firstDiscovered b hb))

/-- Beside the engine's events a table fails to be made only for an event that is declared twice or built in. -/
theorem exists_assign_all_iff : (∃ t, assign snapshot order BuiltinEvent.all = .ok t) ↔
    (eventNames snapshot).Nodup ∧ ∀ n ∈ eventNames snapshot, n ∉ BuiltinEvent.all.map BuiltinEvent.key := by
  constructor
  · rintro ⟨t, ht⟩
    exact origins_ok_iff.1 (exists_origins_of_assign ht)
  · rintro ⟨hnodup, hnew⟩
    exact (exists_assign_iff consistentKeys_all hnodup hnew).1.2 (separate_all _)

/-- The discovered names of the table are the events of the snapshot, each of them once. -/
theorem discoveredNames_perm (h : assign snapshot order BuiltinEvent.all = .ok t) :
    t.discoveredNames.Perm (eventNames snapshot) := by
  have hnumbers := numbers_of_assign consistentKeys_all h
  have hnames : t.discoveredNames.Nodup := by
    refine (List.Nodup.filter _ (List.Nodup.of_map _ t.ids.keys_nodup)).map_on ?_
    rintro ⟨i, n⟩ hi ⟨j, m⟩ hj rfl
    have hin := hnumbers.mem_items.1 (List.mem_of_mem_filter hi)
    have hjn := hnumbers.mem_items.1 (List.mem_of_mem_filter hj)
    rw [hin] at hjn
    cases hjn
    rfl
  refine (List.perm_ext_iff_of_nodup hnames (exists_assign_all_iff.1 ⟨t, h⟩).1).2 fun n => ?_
  simp only [IdTable.discoveredNames, IdTable.discoveredItems, List.mem_map, List.mem_filter, decide_eq_true_eq]
  constructor
  · rintro ⟨⟨i, m⟩, ⟨hi, hdiscovered⟩, rfl⟩
    rcases hnumbers.known m i (hnumbers.mem_items.1 hi) with ⟨b, hb, -, rfl⟩ | hm
    · exact absurd hdiscovered (not_le.2 (id_lt_firstDiscovered b hb))
    · exact hm
  · intro hn
    obtain ⟨i, hi⟩ := Ledger.exists_get?_of_mem (hnumbers.mem_keys hn)
    exact ⟨(i, n), ⟨hnumbers.mem_items.2 hi, ((hnumbers.block i).2 ⟨n, hn, hi⟩).1⟩, rfl⟩

/-- The discovered names stand in ascending order of their identifiers. -/
theorem discoveredNames_ascending (h : assign snapshot order BuiltinEvent.all = .ok t) :
    t.discoveredNames.Pairwise fun m n =>
      ∃ i j, t.names.get? m = some i ∧ t.names.get? n = some j ∧ i < j := by
  have hnumbers := numbers_of_assign consistentKeys_all h
  rw [IdTable.discoveredNames, List.pairwise_map]
  refine (hnumbers.items_ascending.imp_of_mem fun he hf hef => ?_).sublist List.filter_sublist
  exact ⟨_, _, hnumbers.mem_items.1 he, hnumbers.mem_items.1 hf, hef⟩

/-- **Built-in items.** Whatever is discovered, the built-in events stand in front, with their own identifiers. -/
theorem builtinItems_eq (h : assign snapshot order BuiltinEvent.all = .ok t) :
    t.builtinItems = BuiltinEvent.all.map fun b => (b.id, b.key) := by
  have hnumbers := numbers_of_assign consistentKeys_all h
  have hascending : t.builtinItems.Pairwise fun e f => e.1 < f.1 := hnumbers.items_ascending.sublist List.filter_sublist
  have hall : (BuiltinEvent.all.map fun b => (b.id, b.key)).Pairwise fun e f => e.1 < f.1 := by decide
  have hnodup : t.builtinItems.Nodup := (List.Nodup.of_map _ t.ids.keys_nodup).filter _
  refine List.Perm.eq_of_pairwise (fun a b _ _ hab hba => absurd hba (lt_asymm hab)) hascending hall ?_
  refine (List.perm_ext_iff_of_nodup hnodup (by decide)).2 fun ⟨i, n⟩ => ?_
  rw [IdTable.builtinItems, List.mem_filter, hnumbers.mem_items, decide_eq_true_eq, List.mem_map]
  constructor
  · rintro ⟨hn, hi⟩
    rcases hnumbers.known n i hn with ⟨b, hb, rfl, rfl⟩ | hevent
    · exact ⟨b, hb, rfl⟩
    · exact absurd ((hnumbers.block i).2 ⟨n, hevent, hn⟩).1 (not_le.2 hi)
  · rintro ⟨b, hb, heq⟩
    cases heq
    exact ⟨hnumbers.builtin b hb, id_lt_firstDiscovered b hb⟩

/-- the identifiers in use are those of the built-in events and a block of as many as there are events -/
theorem mem_ids_keys (h : assign snapshot order BuiltinEvent.all = .ok t) {i : Int} : i ∈ t.ids.keys ↔
    i ∈ BuiltinEvent.all.map BuiltinEvent.id ∨
      firstDiscovered ≤ i ∧ i < firstDiscovered + (eventNames snapshot).length := by
  have hnumbers := numbers_of_assign consistentKeys_all h
  have hkey : i ∈ t.ids.keys ↔ ∃ n, t.names.get? n = some i := by
    rw [Ledger.mem_keys]
    exact exists_congr fun n => hnumbers.mem_items
  rw [hkey, hnumbers.block, List.mem_map]
  constructor
  · rintro ⟨n, hn⟩
    exact (hnumbers.known n i hn).imp (fun ⟨b, hb, _, hi⟩ => ⟨b, hb, hi⟩) fun hevent => ⟨n, hevent, hn⟩
  · rintro (⟨b, hb, rfl⟩ | ⟨n, -, hn⟩)
    · exact ⟨b.key, hnumbers.builtin b hb⟩
    · exact ⟨n, hn⟩

/-- **Identifiers in use.** They depend on the number of events alone. -/
theorem ids_keys_congr {others : List Context} {order' : IdOrder} {u : IdTable}
    (h : (eventNames snapshot).length = (eventNames others).length)
    (ht : assign snapshot order BuiltinEvent.all = .ok t) (hu : assign others order' BuiltinEvent.all = .ok u) :
    t.ids.keys = u.ids.keys := by
  refine List.Perm.eq_of_pairwise (fun a b _ _ hab hba => absurd hba (lt_asymm hab))
    (numbers_of_assign consistentKeys_all ht).ascending (numbers_of_assign consistentKeys_all hu).ascending ?_
  refine (List.perm_ext_iff_of_nodup t.ids.keys_nodup u.ids.keys_nodup).2 fun i => ?_
  rw [mem_ids_keys ht, mem_ids_keys hu, h]

/-- `second` declares an event that is built in or that `first` has declared before -/
def Clash (snapshot : List Context) (event first second : String) : Prop :=
  (event ∈ BuiltinEvent.all.map BuiltinEvent.key ∧ first = builtinOrigin ∧ (event, second) ∈ declarations snapshot) ∨
    [(event, first), (event, second)].Sublist (declarations snapshot)

/-- Beside the engine's events nothing but a clash stops the numbering. -/
theorem assign_clash {f : Fault} (h : assign snapshot order BuiltinEvent.all = .error f) :
    ∃ event first second, f = .duplicateEvent event first second ∧ Clash snapshot event first second := by
  cases horigins : origins snapshot BuiltinEvent.all with
  | error g =>
    rw [assign_of_fault horigins] at h
    cases h
    exact collect_clash horigins
  | ok found =>
    obtain ⟨t, ht⟩ := exists_assign_all_iff.2 (origins_ok_iff.1 ⟨found, horigins⟩)
    rw [ht] at h
    cases h

/-- where two events clash, an event of the snapshot occurs twice or is built in -/
theorem Clash.repeated_or_builtin {event first second : String} (h : Clash snapshot event first second) :
    ¬(eventNames snapshot).Nodup ∨ ∃ n ∈ eventNames snapshot, n ∈ BuiltinEvent.all.map BuiltinEvent.key := by
  rw [← map_fst_declarations]
  rcases h with ⟨hbuiltin, -, hsecond⟩ | htwice
  · exact Or.inr ⟨event, List.mem_map_of_mem hsecond, hbuiltin⟩
  · refine Or.inl fun hnodup => ?_
    have htwice : [event, event].Nodup := (htwice.map Prod.fst).nodup hnodup
    exact absurd List.mem_cons_self (List.nodup_cons.1 htwice).1

theorem ne_empty_of_declared {event artifact : String}
    (h : (event, artifact) ∈ declarations snapshot) : event ≠ "" ∧ artifact ≠ "" := by
  obtain ⟨c, -, hevent, rfl⟩ := mem_declarations.1 h
  obtain ⟨x, -, rfl⟩ := List.mem_map.1 hevent
  exact ⟨x.event_ne, c.artifact_ne⟩

/-- the fault of a clash passes its own checks -/
theorem Clash.raised {event first second : String} (h : Clash snapshot event first second) :
    Fault.forDuplicateEvent event first second = .ok (.duplicateEvent event first second) := by
  have hnames : event ≠ "" ∧ first ≠ "" ∧ second ≠ "" := by
    rcases h with ⟨-, rfl, hsecond⟩ | htwice
    · obtain ⟨hevent, hartifact⟩ := ne_empty_of_declared hsecond
      exact ⟨hevent, by decide, hartifact⟩
    · obtain ⟨hevent, hfirst⟩ := ne_empty_of_declared (htwice.subset List.mem_cons_self)
      obtain ⟨-, hsecond⟩ := ne_empty_of_declared (htwice.subset (List.mem_cons_of_mem _ List.mem_cons_self))
      exact ⟨hevent, hfirst, hsecond⟩
  rw [Fault.forDuplicateEvent, if_neg hnames.1, if_neg hnames.2.1, if_neg hnames.2.2]

/-! ## Independence of the order -/

/-- Numbered by name, the table is the same for the same declarations in any order. -/
theorem assign_sorted_congr {others : List Context} (h : (declarations snapshot).Perm (declarations others))
    (ht : assign snapshot .sorted builtins = .ok t) : assign others .sorted builtins = .ok t := by
  have hnames : (eventNames snapshot).Perm (eventNames others) := by
    rw [← map_fst_declarations, ← map_fst_declarations]
    exact h.map _
  obtain ⟨found, hfound⟩ := exists_origins_of_assign ht
  obtain ⟨hnodup, hnew⟩ := origins_ok_iff.1 ⟨found, hfound⟩
  obtain ⟨found', hfound'⟩ := origins_ok_iff.2
    ⟨hnames.nodup_iff.1 hnodup, fun n hn => hnew n (hnames.mem_iff.2 hn)⟩
  have harrange := arrange_sorted_congr hnames hnodup
  have hget : ∀ n, found.get? n = found'.get? n := Ledger.get?_congr fun e => by
    rw [origins_entries hfound, origins_entries hfound', h.mem_iff]
  have hdeclared : declared .sorted found = declared .sorted found' := by
    apply Ledger.eq_of_entries
    rw [entries_declared, entries_declared, origins_keys hfound, origins_keys hfound', harrange]
    simp only [hget]
  rw [assign_of_origins hfound', ← harrange, ← hdeclared, ← assign_of_origins hfound]
  exact ht

end Assignment

end SignalWiring
