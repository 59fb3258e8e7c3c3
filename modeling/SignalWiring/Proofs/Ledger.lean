/-
What a ledger holds, read off its entries.

- `get?_eq_some_iff`: a key leads to a value exactly when the pair is an entry (keys are pairwise different).
- `mem_entries_put`, `entries_put_of_not_mem`: a write drops the other entries of its key, and a new key goes to the end.
- `putAll_putAll`: several writes, made a second time, change nothing.
- `entries_putAll_eq`: several writes replace entries where they stand and append the others in order.
- `mem_entries_ofList`, `entries_ofList`, `size_ofList`: pairs that are written one after the other. As long as no key has
  two values the entries are the pairs; without repeated keys they also stand in the order of the pairs.
- `get?_sortKeys`, `keys_sortKeys_lt`: sorting moves entries and changes no look-up.
-/
import Mathlib.Tactic
import SignalWiring.Ledger

namespace SignalWiring.Ledger

variable {K V : Type}

theorem eq_of_entries {l m : Ledger K V} (h : l.entries = m.entries) : l = m := by
  obtain ⟨es, hes⟩ := l
  obtain ⟨fs, hfs⟩ := m
  simp only at h
  subst h
  rfl

theorem mem_keys {l : Ledger K V} {k : K} : k ∈ l.keys ↔ ∃ v, (k, v) ∈ l.entries := by
  simp [keys]

theorem keys_nodup (l : Ledger K V) : l.keys.Nodup := l.distinct

/-- two entries with the same key are the same entry -/
theorem value_unique {l : Ledger K V} {k : K} {v w : V} (hv : (k, v) ∈ l.entries) (hw : (k, w) ∈ l.entries) : v = w := by
  have h := List.inj_on_of_nodup_map l.distinct hv hw rfl
  exact (Prod.mk.inj h).2

/-! ## Sorting -/

theorem mem_entries_sortKeys {l : Ledger K V} {le : K → K → Bool} {e : K × V} :
    e ∈ (l.sortKeys le).entries ↔ e ∈ l.entries := (List.mergeSort_perm _ _).mem_iff

theorem size_sortKeys (l : Ledger K V) (le : K → K → Bool) : (l.sortKeys le).size = l.size :=
  (List.mergeSort_perm _ _).length_eq

/-- Sorted keys are strictly ascending, since none of them occurs twice. -/
theorem keys_sortKeys_lt [LinearOrder K] (l : Ledger K V) :
    (l.sortKeys fun a b => decide (a ≤ b)).keys.Pairwise (· < ·) := by
  have hle : (l.sortKeys fun a b => decide (a ≤ b)).keys.Pairwise (· ≤ ·) := by
    rw [keys, List.pairwise_map]
    have h : (l.entries.mergeSort fun a b => decide (a.1 ≤ b.1)).Pairwise fun a b => decide (a.1 ≤ b.1) = true :=
      List.pairwise_mergeSort (fun a b c => by simpa using le_trans) (fun a b => by simpa using le_total a.1 b.1) _
    exact h.imp fun h => by simpa using h
  have hne := (l.sortKeys fun a b => decide (a ≤ b)).keys_nodup
  exact (hle.and hne).imp fun h => lt_of_le_of_ne h.1 h.2

variable [DecidableEq K]

/-! ## Look-up -/

theorem get?_eq_some_iff {l : Ledger K V} {k : K} {v : V} : l.get? k = some v ↔ (k, v) ∈ l.entries := by
  constructor
  · intro h
    simp only [get?, Option.map_eq_some_iff] at h
    obtain ⟨e, he, rfl⟩ := h
    have hk : e.1 = k := by simpa using List.find?_some he
    rw [← hk]
    exact List.mem_of_find?_eq_some he
  · intro h
    cases hf : l.entries.find? fun e => e.1 = k with
    | none =>
      rw [List.find?_eq_none] at hf
      exact absurd (by simp) (hf _ h)
    | some e =>
      have hk : e.1 = k := by simpa using List.find?_some hf
      have he : (k, e.2) ∈ l.entries := hk ▸ List.mem_of_find?_eq_some hf
      simp [get?, hf, value_unique he h]

theorem get?_eq_none_iff {l : Ledger K V} {k : K} : l.get? k = none ↔ k ∉ l.keys := by
  rw [Option.eq_none_iff_forall_ne_some, mem_keys]
  simp only [ne_eq, get?_eq_some_iff, not_exists]

theorem exists_get?_of_mem {l : Ledger K V} {k : K} (h : k ∈ l.keys) : ∃ v, l.get? k = some v := by
  obtain ⟨v, hv⟩ := mem_keys.1 h
  exact ⟨v, get?_eq_some_iff.2 hv⟩

/-- Two ledgers with the same entries, in whatever order, answer every look-up alike. -/
theorem get?_congr {l m : Ledger K V} (h : ∀ e, e ∈ l.entries ↔ e ∈ m.entries) (k : K) : l.get? k = m.get? k := by
  apply Option.ext
  intro v
  simp only [get?_eq_some_iff, h]

theorem get?_sortKeys (l : Ledger K V) (le : K → K → Bool) (k : K) : (l.sortKeys le).get? k = l.get? k :=
  get?_congr (fun _ => mem_entries_sortKeys) k

/-! ## Writing -/

theorem putEntry_of_not_mem {k : K} {v : V} {es : List (K × V)} (h : k ∉ es.map Prod.fst) :
    putEntry k v es = es ++ [(k, v)] := by
  induction es with
  | nil => rfl
  | cons e rest ih =>
    simp only [List.map_cons, List.mem_cons, not_or] at h
    simp [putEntry, Ne.symm h.1, ih h.2]

theorem entries_put_of_not_mem {l : Ledger K V} {k : K} (v : V) (h : k ∉ l.keys) :
    (l.put k v).entries = l.entries ++ [(k, v)] := putEntry_of_not_mem h

theorem mem_keys_put {l : Ledger K V} {k j : K} {v : V} : j ∈ (l.put k v).keys ↔ j ∈ l.keys ∨ j = k := by
  rw [keys_put]
  split
  · rename_i h
    exact ⟨Or.inl, fun hj => hj.elim id fun hk => hk ▸ h⟩
  · simp

theorem mem_entries_put {l : Ledger K V} {k : K} {v : V} {e : K × V} :
    e ∈ (l.put k v).entries ↔ e = (k, v) ∨ e.1 ≠ k ∧ e ∈ l.entries := by
  obtain ⟨j, w⟩ := e
  rw [← get?_eq_some_iff]
  by_cases hj : j = k
  · subst hj
    simp [get?_put_self, eq_comm]
  · simp [get?_put_of_ne _ _ hj, hj, get?_eq_some_iff]

/-! ## Erasing -/

theorem mem_entries_erase {l : Ledger K V} {k : K} {e : K × V} :
    e ∈ (l.erase k).entries ↔ e ∈ l.entries ∧ e.1 ≠ k := by
  simp only [erase, List.mem_filter, decide_eq_true_eq]

theorem get?_erase_self (l : Ledger K V) (k : K) : (l.erase k).get? k = none := by
  rw [get?_eq_none_iff, mem_keys]
  rintro ⟨v, hv⟩
  exact (mem_entries_erase.1 hv).2 rfl

theorem get?_erase_of_ne (l : Ledger K V) {k j : K} (hj : j ≠ k) : (l.erase k).get? j = l.get? j := by
  apply Option.ext
  intro v
  rw [get?_eq_some_iff, get?_eq_some_iff, mem_entries_erase]
  exact ⟨fun h => h.1, fun h => ⟨h, hj⟩⟩

/-! ## Writing several pairs -/

def putAll (l : Ledger K V) (pairs : List (K × V)) : Ledger K V := pairs.foldl (fun l e => l.put e.1 e.2) l

theorem putAll_cons (l : Ledger K V) (e : K × V) (pairs : List (K × V)) :
    l.putAll (e :: pairs) = (l.put e.1 e.2).putAll pairs := rfl

theorem ofList_eq (pairs : List (K × V)) : ofList pairs = empty.putAll pairs := rfl

theorem mem_keys_putAll {l : Ledger K V} {pairs : List (K × V)} {k : K} :
    k ∈ (l.putAll pairs).keys ↔ k ∈ l.keys ∨ k ∈ pairs.map Prod.fst := by
  induction pairs generalizing l with
  | nil => simp [putAll]
  | cons e rest ih => rw [putAll_cons, ih, mem_keys_put, List.map_cons, List.mem_cons, or_assoc]

theorem mem_of_mem_putAll {l : Ledger K V} {pairs : List (K × V)} {e : K × V} (h : e ∈ (l.putAll pairs).entries) :
    e ∈ l.entries ∨ e ∈ pairs := by
  induction pairs generalizing l with
  | nil => exact Or.inl h
  | cons x rest ih =>
    rcases ih h with h | h
    · rcases mem_entries_put.1 h with h | h
      · exact Or.inr (h ▸ List.mem_cons_self)
      · exact Or.inl h.2
    · exact Or.inr (List.mem_cons_of_mem _ h)

/-- Several writes drop the other entries of their keys. -/
theorem mem_entries_putAll {l : Ledger K V} {pairs : List (K × V)} (h : (pairs.map Prod.fst).Nodup) {e : K × V} :
    e ∈ (l.putAll pairs).entries ↔ e ∈ pairs ∨ e ∈ l.entries ∧ e.1 ∉ pairs.map Prod.fst := by
  induction pairs generalizing l with
  | nil => simp [putAll]
  | cons x rest ih =>
    rw [List.map_cons, List.nodup_cons] at h
    rw [putAll_cons, ih h.2, mem_entries_put, List.map_cons, List.mem_cons, List.mem_cons]
    constructor
    · rintro (he | ⟨rfl | ⟨hne, he⟩, hrest⟩)
      · exact Or.inl (Or.inr he)
      · exact Or.inl (Or.inl rfl)
      · exact Or.inr ⟨he, fun hmem => hmem.elim hne hrest⟩
    · rintro ((rfl | he) | ⟨he, hmem⟩)
      · exact Or.inr ⟨Or.inl rfl, h.1⟩
      · exact Or.inl he
      · exact Or.inr ⟨Or.inr ⟨fun hx => hmem (Or.inl hx), he⟩, fun hrest => hmem (Or.inr hrest)⟩

theorem entries_putAll {l : Ledger K V} {pairs : List (K × V)} (h : ((l.entries ++ pairs).map Prod.fst).Nodup) :
    (l.putAll pairs).entries = l.entries ++ pairs := by
  induction pairs generalizing l with
  | nil => simp [putAll]
  | cons e rest ih =>
    have he : e.1 ∉ l.keys := by
      intro hk
      rw [List.map_append, List.nodup_append] at h
      exact h.2.2 _ hk _ (by simp) rfl
    have hl : (l.put e.1 e.2).entries = l.entries ++ [e] := entries_put_of_not_mem e.2 he
    rw [putAll_cons, ih (by rw [hl]; simpa using h), hl]
    simp

/-! ## Writing the same pairs again -/

/-- two ledgers with the same keys in the same order that answer every look-up alike are the same -/
theorem eq_of_get? {l m : Ledger K V} (hkeys : l.keys = m.keys) (hget : ∀ k, l.get? k = m.get? k) : l = m := by
  have hentries : ∀ l : Ledger K V, l.entries.map some = l.keys.map fun k => (l.get? k).map fun v => (k, v) := by
    intro l
    rw [keys, List.map_map]
    refine List.map_congr_left fun e he => ?_
    rw [Function.comp_apply, get?_eq_some_iff.2 he, Option.map_some]
  apply eq_of_entries
  apply List.map_injective_iff.2 (Option.some_injective (K × V))
  rw [hentries l, hentries m, hkeys]
  exact List.map_congr_left fun k _ => congrArg _ (hget k)

theorem get?_putAll_of_not_mem {l : Ledger K V} {pairs : List (K × V)} {k : K} (h : k ∉ pairs.map Prod.fst) :
    (l.putAll pairs).get? k = l.get? k := by
  induction pairs generalizing l with
  | nil => rfl
  | cons e rest ih =>
    rw [List.map_cons, List.mem_cons, not_or] at h
    rw [putAll_cons, ih h.2, get?_put_of_ne _ _ h.1]

/-- what is read of a key that was written does not depend on what was there before -/
theorem get?_putAll_congr {pairs : List (K × V)} {k : K} (h : k ∈ pairs.map Prod.fst) (l m : Ledger K V) :
    (l.putAll pairs).get? k = (m.putAll pairs).get? k := by
  induction pairs generalizing l m with
  | nil => cases h
  | cons e rest ih =>
    rw [putAll_cons, putAll_cons]
    by_cases hrest : k ∈ rest.map Prod.fst
    · exact ih hrest _ _
    · have hk : k = e.1 := (List.mem_cons.1 h).resolve_right hrest
      subst hk
      rw [get?_putAll_of_not_mem hrest, get?_putAll_of_not_mem hrest, get?_put_self, get?_put_self]

theorem keys_putAll_of_subset {l : Ledger K V} {pairs : List (K × V)} (h : ∀ k ∈ pairs.map Prod.fst, k ∈ l.keys) :
    (l.putAll pairs).keys = l.keys := by
  induction pairs generalizing l with
  | nil => rfl
  | cons e rest ih =>
    have hone : (l.put e.1 e.2).keys = l.keys := by rw [keys_put, if_pos (h e.1 List.mem_cons_self)]
    rw [putAll_cons, ih fun k hk => hone ▸ h k (List.mem_cons_of_mem _ hk), hone]

/-- Pairs that are written a second time change nothing. -/
theorem putAll_putAll (l : Ledger K V) (pairs : List (K × V)) : (l.putAll pairs).putAll pairs = l.putAll pairs := by
  apply eq_of_get?
  · exact keys_putAll_of_subset fun k hk => mem_keys_putAll.2 (Or.inr hk)
  · intro k
    by_cases hk : k ∈ pairs.map Prod.fst
    · exact get?_putAll_congr hk _ _
    · exact get?_putAll_of_not_mem hk

/-! ## In place or at the end -/

/-- what an entry becomes when the pairs are written: the pair of its key, if there is one -/
def rewritten (pairs : List (K × V)) (e : K × V) : K × V := (pairs.find? fun x => x.1 = e.1).getD e

theorem rewritten_of_not_mem {pairs : List (K × V)} {e : K × V} (h : e.1 ∉ pairs.map Prod.fst) :
    rewritten pairs e = e := by
  have hnone : pairs.find? (fun x => x.1 = e.1) = none := by
    rw [List.find?_eq_none]
    intro x hx heq
    exact h (List.mem_map.2 ⟨x, hx, by simpa using heq⟩)
  rw [rewritten, hnone, Option.getD_none]

theorem rewritten_cons_self {pairs : List (K × V)} {e x : K × V} (h : x.1 = e.1) : rewritten (x :: pairs) e = x := by
  simp [rewritten, h]

theorem rewritten_cons_of_ne {pairs : List (K × V)} {e x : K × V} (h : x.1 ≠ e.1) :
    rewritten (x :: pairs) e = rewritten pairs e := by
  simp [rewritten, h]

theorem putEntry_of_mem {k : K} {v : V} {es : List (K × V)} (hnodup : (es.map Prod.fst).Nodup)
    (h : k ∈ es.map Prod.fst) : putEntry k v es = es.map (rewritten [(k, v)]) := by
  induction es with
  | nil => simp at h
  | cons e rest ih =>
    rw [List.map_cons, List.nodup_cons] at hnodup
    rw [List.map_cons, List.mem_cons] at h
    by_cases hk : e.1 = k
    · -- no other entry has this key
      have hrest : rest.map (rewritten [(k, v)]) = rest := by
        refine (List.map_congr_left fun x hx => rewritten_of_not_mem ?_).trans (List.map_id _)
        intro hx'
        rw [List.map_singleton, List.mem_singleton, ← hk] at hx'
        exact hnodup.1 (hx' ▸ List.mem_map_of_mem hx)
      simp only [putEntry, hk, if_true, List.map_cons, hrest]
      rw [rewritten_cons_self hk.symm]
    · have hmem : k ∈ rest.map Prod.fst := h.resolve_left (Ne.symm hk)
      simp only [putEntry, hk, if_false, List.map_cons]
      rw [rewritten_cons_of_ne (Ne.symm hk), ih hnodup.2 hmem]
      rfl

theorem entries_put_of_mem {l : Ledger K V} {k : K} (v : V) (h : k ∈ l.keys) :
    (l.put k v).entries = l.entries.map (rewritten [(k, v)]) := putEntry_of_mem l.distinct h

/-- **In place or at the end.** Pairs that are written replace the entries of their keys where these stand, and pairs with
new keys follow in their own order. -/
theorem entries_putAll_eq {l : Ledger K V} {pairs : List (K × V)} (h : (pairs.map Prod.fst).Nodup) :
    (l.putAll pairs).entries = l.entries.map (rewritten pairs) ++ pairs.filter fun e => e.1 ∉ l.keys := by
  induction pairs generalizing l with
  | nil =>
    have hid : (rewritten [] : K × V → K × V) = id := rfl
    simp [putAll, hid]
  | cons x rest ih =>
    rw [List.map_cons, List.nodup_cons] at h
    have hself : rewritten rest x = x := rewritten_of_not_mem h.1
    have hlater : ∀ e : K × V, rewritten rest (rewritten [x] e) = rewritten (x :: rest) e := by
      intro e
      by_cases hx : x.1 = e.1
      · rw [rewritten_cons_self hx, rewritten_cons_self hx, hself]
      · rw [rewritten_cons_of_ne hx, rewritten_cons_of_ne hx]
        rfl
    rw [putAll_cons, ih h.2]
    by_cases hk : x.1 ∈ l.keys
    · have hkeys : (l.put x.1 x.2).keys = l.keys := by rw [keys_put, if_pos hk]
      rw [entries_put_of_mem x.2 hk, hkeys, List.map_map, List.filter_cons_of_neg (by simpa using hk)]
      exact congrArg (· ++ _) (List.map_congr_left fun e _ => hlater e)
    · have hnew : rest.filter (fun e => e.1 ∉ (l.put x.1 x.2).keys) = rest.filter fun e => e.1 ∉ l.keys := by
        refine List.filter_congr fun e he => ?_
        have hne : e.1 ≠ x.1 := fun heq => h.1 (heq ▸ List.mem_map_of_mem he)
        simp [mem_keys_put, hne]
      have hold : l.entries.map (rewritten rest) = l.entries.map (rewritten (x :: rest)) := by
        refine List.map_congr_left fun e he => ?_
        have hne : x.1 ≠ e.1 := fun heq => hk (heq ▸ List.mem_map_of_mem he)
        rw [rewritten_cons_of_ne hne]
      rw [entries_put_of_not_mem x.2 hk, List.map_append, List.map_singleton, hself, hold, hnew,
        List.filter_cons_of_pos (by simpa using hk), List.append_assoc]
      rfl

/-! ## Ledgers of pairs -/

theorem mem_keys_ofList {pairs : List (K × V)} {k : K} : k ∈ (ofList pairs).keys ↔ k ∈ pairs.map Prod.fst := by
  rw [ofList_eq, mem_keys_putAll]
  simp [empty, keys]

theorem mem_of_mem_ofList {pairs : List (K × V)} {e : K × V} (h : e ∈ (ofList pairs).entries) : e ∈ pairs := by
  rcases mem_of_mem_putAll h with h | h
  · exact absurd h (by simp [empty])
  · exact h

/-- no key has two values -/
def Functional (pairs : List (K × V)) : Prop := ∀ e ∈ pairs, ∀ f ∈ pairs, e.1 = f.1 → e = f

theorem mem_entries_ofList {pairs : List (K × V)} (h : Functional pairs) {e : K × V} :
    e ∈ (ofList pairs).entries ↔ e ∈ pairs := by
  refine ⟨mem_of_mem_ofList, fun he => ?_⟩
  obtain ⟨w, hw⟩ := mem_keys.1 (mem_keys_ofList.2 (List.mem_map_of_mem he))
  rw [h e he (e.1, w) (mem_of_mem_ofList hw) rfl]
  exact hw

theorem get?_ofList {pairs : List (K × V)} (h : Functional pairs) {k : K} {v : V} :
    (ofList pairs).get? k = some v ↔ (k, v) ∈ pairs := by
  rw [get?_eq_some_iff, mem_entries_ofList h]

theorem entries_ofList {pairs : List (K × V)} (h : (pairs.map Prod.fst).Nodup) : (ofList pairs).entries = pairs := by
  rw [ofList_eq, entries_putAll (by simpa [empty] using h)]
  rfl

theorem size_ofList (pairs : List (K × V)) : (ofList pairs).size = (pairs.map Prod.fst).toFinset.card := by
  have h : (pairs.map Prod.fst).toFinset = (ofList pairs).keys.toFinset := by
    ext k
    rw [List.mem_toFinset, List.mem_toFinset, mem_keys_ofList]
  rw [h, List.toFinset_card_of_nodup (ofList pairs).keys_nodup, keys, List.length_map, size]

end SignalWiring.Ledger
