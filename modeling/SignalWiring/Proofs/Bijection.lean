/-
Tables are bijections.

A table is made of two maps by one walk over the names and a comparison of sizes. The walk shows that different names have
different identifiers, and that each of these leads back. So there are at least as many identifiers as names, and if there
are no more of them, none is left to lead anywhere else.

- `IdTable.inverse`: the two maps of a table are inverse to each other.
- `IdTable.Inverse.size_eq`: maps that are inverse to each other have the same size.
- `IdTable.coherent`: what the queries of a table say then.
- `make_iff_inverse`: two maps make a table exactly when they are inverse to each other and all origins are discovered.
-/
import SignalWiring.Proofs.Decoding

namespace SignalWiring.IdTable

/-! ## Maps that are inverse to each other -/

/-- a name has an identifier exactly when the identifier has the name -/
def Inverse (names : Ledger String Int) (ids : Ledger Int String) : Prop :=
  ∀ n i, names.get? n = some i ↔ ids.get? i = some n

/-- every origin is recorded for a name with the identifier of a discovered event -/
def OriginsDiscovered (names : Ledger String Int) (origins : Ledger String String) : Prop :=
  ∀ n ∈ origins.keys, ∃ i, names.get? n = some i ∧ firstDiscovered ≤ i

section Maps

variable {names : Ledger String Int} {ids : Ledger Int String} {origins : Ledger String String} {t : IdTable}

/-- The maps of a table are inverse to each other. One direction is checked, the other follows by counting. -/
theorem inverse (t : IdTable) : Inverse t.names t.ids := by
  intro n i
  rw [Ledger.get?_eq_some_iff, Ledger.get?_eq_some_iff, ← t.swapped_items_perm.mem_iff]
  simp [items]

/-- Maps that are inverse to each other have the same size. -/
theorem Inverse.size_eq (h : Inverse names ids) : names.size = ids.size := by
  have hnames : (names.entries.map Prod.swap).Nodup :=
    (List.nodup_map_iff Prod.swap_injective).2 (List.Nodup.of_map _ names.distinct)
  have hids : ids.entries.Nodup := List.Nodup.of_map _ ids.distinct
  have hperm : (names.entries.map Prod.swap).Perm ids.entries := by
    refine (List.perm_ext_iff_of_nodup hnames hids).2 fun ⟨i, n⟩ => ?_
    rw [← Ledger.get?_eq_some_iff, ← h, Ledger.get?_eq_some_iff]
    simp
  have hlength := hperm.length_eq
  rwa [List.length_map] at hlength

theorem Inverse.reverse (h : Inverse names ids) : ∀ e ∈ names.entries, ids.get? e.2 = some e.1 :=
  fun _ he => (h _ _).1 (Ledger.get?_eq_some_iff.2 he)

/-- a name that is missing counts as one with the identifier zero, which is no discovered event's -/
theorem originsDiscovered_iff :
    OriginsDiscovered names origins ↔ ∀ n ∈ origins.keys, firstDiscovered ≤ (names.get? n).getD 0 := by
  refine forall₂_congr fun n _ => ?_
  cases names.get? n with
  | none => exact iff_of_false (fun ⟨_, hi, _⟩ => nomatch hi) (by decide)
  | some i => simp

theorem make_eq_error {f : Fault} (h : make names ids origins = .error f) : ∃ cause, f = .invalid cause := by
  simp only [make] at h
  split at h
  · split at h
    · cases h
      exact ⟨_, rfl⟩
    · split at h
      · cases h
        exact ⟨_, rfl⟩
      · cases h
  · cases h
    exact ⟨_, rfl⟩

end Maps

/-! ## Queries -/

/-- what is asked of a table is answered by both maps alike -/
structure Coherent (t : IdTable) : Prop where
  /-- a known name has an identifier, and that has the name -/
  nameOf_idOf : ∀ n ∈ t.names.keys, ∃ i, t.idOf n = .ok i ∧ t.nameOf i = .ok n
  /-- a known identifier has a name, and that has the identifier -/
  idOf_nameOf : ∀ i ∈ t.ids.keys, ∃ n, t.nameOf i = .ok n ∧ t.idOf n = .ok i
  /-- there is no answer to anything else -/
  unknown_name : ∀ n, n ∉ t.names.keys → t.idOf n = .error (.unknownKey n)
  unknown_id : ∀ i, i ∉ t.ids.keys → t.nameOf i = .error (.unknownKey (toString i))
  /-- the events are the keys of one map and the values of the other -/
  has_key : ∀ n, t.has n = true ↔ n ∈ t.names.keys
  has_value : ∀ n, t.has n = true ↔ n ∈ t.ids.values
  size_names : t.size = t.names.size
  size_ids : t.size = t.ids.size
  /-- every pair is an item of a built-in event or of a discovered one, and is so once -/
  item_iff : ∀ i n, (i, n) ∈ t.builtinItems ++ t.discoveredItems ↔ t.names.get? n = some i
  items_nodup : (t.builtinItems ++ t.discoveredItems).Nodup
  builtin : ∀ e ∈ t.builtinItems, e.1 < firstDiscovered
  discovered : ∀ e ∈ t.discoveredItems, firstDiscovered ≤ e.1

section Queries

variable {t : IdTable} {n : String} {i : Int}

theorem idOf_eq_ok : t.idOf n = .ok i ↔ t.names.get? n = some i := by
  rw [idOf]
  cases t.names.get? n <;> simp

theorem nameOf_eq_ok : t.nameOf i = .ok n ↔ t.ids.get? i = some n := by
  rw [nameOf]
  cases t.ids.get? i <;> simp

/-- The two kinds of items are all items, taken apart. -/
theorem builtin_append_discovered_perm (t : IdTable) : (t.builtinItems ++ t.discoveredItems).Perm t.items := by
  have hrest : t.discoveredItems = t.items.filter fun e => !decide (e.1 < firstDiscovered) :=
    List.filter_congr fun e _ => by rw [← decide_not, decide_eq_decide, Int.not_lt]
  rw [hrest]
  exact List.filter_append_perm _ _

/-- **Queries.** The queries of a table agree with each other and with both of its maps. -/
theorem coherent (t : IdTable) : t.Coherent where
  nameOf_idOf n hn := by
    obtain ⟨i, hi⟩ := Ledger.exists_get?_of_mem hn
    exact ⟨i, idOf_eq_ok.2 hi, nameOf_eq_ok.2 ((t.inverse n i).1 hi)⟩
  idOf_nameOf i hi := by
    obtain ⟨n, hn⟩ := Ledger.exists_get?_of_mem hi
    exact ⟨n, nameOf_eq_ok.2 hn, idOf_eq_ok.2 ((t.inverse n i).2 hn)⟩
  unknown_name n hn := by rw [idOf, Ledger.get?_eq_none_iff.2 hn]
  unknown_id i hi := by rw [nameOf, Ledger.get?_eq_none_iff.2 hi]
  has_key n := Ledger.has_iff
  has_value n := by
    rw [has, Ledger.has_iff, Ledger.mem_keys, Ledger.values, List.mem_map]
    constructor
    · rintro ⟨i, hi⟩
      exact ⟨(i, n), Ledger.get?_eq_some_iff.1 (t.reverse _ hi), rfl⟩
    · rintro ⟨⟨i, m⟩, he, rfl⟩
      exact ⟨i, Ledger.get?_eq_some_iff.1 ((t.inverse m i).2 (Ledger.get?_eq_some_iff.2 he))⟩
  size_names := t.sizes_eq.symm
  size_ids := rfl
  item_iff i n := by
    rw [t.builtin_append_discovered_perm.mem_iff, items, t.inverse, Ledger.get?_eq_some_iff]
  items_nodup := t.builtin_append_discovered_perm.nodup_iff.2 (List.Nodup.of_map _ t.ids.distinct)
  builtin _ he := of_decide_eq_true (List.mem_filter.1 he).2
  discovered _ he := of_decide_eq_true (List.mem_filter.1 he).2

end Queries

/-- **What makes a table.** Two maps and some origins make a table exactly when the maps are inverse to each other and
every origin is that of a discovered event; they are refused as invalid otherwise. The table holds the maps as they are,
and its queries agree with both. -/
theorem make_iff_inverse (names : Ledger String Int) (ids : Ledger Int String) (origins : Ledger String String) :
    ((∃ t, make names ids origins = .ok t) ↔ Inverse names ids ∧ OriginsDiscovered names origins) ∧
    (∀ t, make names ids origins = .ok t →
      t.names = names ∧ t.ids = ids ∧ t.origins = origins ∧ t.Coherent) ∧
    ∀ f, make names ids origins = .error f → ∃ cause, f = .invalid cause := by
  refine ⟨⟨?_, ?_⟩, fun t ht => ?_, fun f hf => make_eq_error hf⟩
  · rintro ⟨t, ht⟩
    obtain ⟨rfl, rfl, rfl⟩ := make_parts ht
    exact ⟨t.inverse, originsDiscovered_iff.2 t.origins_discovered⟩
  · rintro ⟨hinverse, horigins⟩
    exact exists_make hinverse.size_eq hinverse.reverse (originsDiscovered_iff.1 horigins)
  · obtain ⟨hnames, hids, horigins⟩ := make_parts ht
    exact ⟨hnames, hids, horigins, t.coherent⟩

end SignalWiring.IdTable
