/-
Insertion-ordered maps.

A `Ledger` is a list of entries whose keys are pairwise different, and that is part of its type. Writing to a key that is
present replaces the value where it stands; a new key goes to the end.

`get?_put_self`, `get?_put_of_ne`: a write is read back and disturbs no other key.
`keys_put`: a write changes the order of the keys only by appending a new one.
-/

namespace SignalWiring

/-! ## Entries -/

/-- write `v` at `k`: in place when `k` is there, else at the end -/
def putEntry {K V : Type} [DecidableEq K] (k : K) (v : V) : List (K × V) → List (K × V)
  | [] => [(k, v)]
  | e :: rest => if e.1 = k then (k, v) :: rest else e :: putEntry k v rest

theorem map_fst_putEntry {K V : Type} [DecidableEq K] (k : K) (v : V) (es : List (K × V)) :
    (putEntry k v es).map Prod.fst = if k ∈ es.map Prod.fst then es.map Prod.fst else es.map Prod.fst ++ [k] := by
  induction es with
  | nil => simp [putEntry]
  | cons e rest ih =>
    by_cases h : e.1 = k
    · simp [putEntry, h]
    · simp only [putEntry, h, if_false, List.map_cons, ih, List.mem_cons, Ne.symm h, false_or]
      split <;> simp

theorem nodup_putEntry {K V : Type} [DecidableEq K] {k : K} {v : V} {es : List (K × V)}
    (h : (es.map Prod.fst).Nodup) : ((putEntry k v es).map Prod.fst).Nodup := by
  rw [map_fst_putEntry]
  split
  · exact h
  · rename_i hk
    refine List.nodup_append.2 ⟨h, by simp, ?_⟩
    rintro a ha b hb rfl
    simp only [List.mem_singleton] at hb
    exact hk (hb ▸ ha)

/-! ## Ledgers -/

/-- entries in order of first insertion, one per key -/
structure Ledger (K V : Type) where
  entries : List (K × V) := []
  distinct : (entries.map Prod.fst).Nodup := by simp

namespace Ledger

variable {K V : Type}

def empty : Ledger K V := {}

instance : Inhabited (Ledger K V) := ⟨empty⟩

/-- keys in order of first insertion -/
def keys (l : Ledger K V) : List K := l.entries.map Prod.fst

/-- values in order of first insertion of their keys -/
def values (l : Ledger K V) : List V := l.entries.map Prod.snd

def size (l : Ledger K V) : Nat := l.entries.length

variable [DecidableEq K]

def get? (l : Ledger K V) (k : K) : Option V := (l.entries.find? fun e => e.1 = k).map Prod.snd

def has (l : Ledger K V) (k : K) : Bool := l.entries.any fun e => e.1 = k

def put (l : Ledger K V) (k : K) (v : V) : Ledger K V :=
  ⟨putEntry k v l.entries, nodup_putEntry l.distinct⟩

/-- drop the entry of `k`, if any -/
def erase (l : Ledger K V) (k : K) : Ledger K V :=
  ⟨l.entries.filter fun e => e.1 ≠ k, l.distinct.sublist (List.filter_sublist.map _)⟩

/-- write the pairs one after the other, so that the last value of a repeated key stands where the key came first -/
def ofList (pairs : List (K × V)) : Ledger K V := pairs.foldl (fun l e => l.put e.1 e.2) empty

/-- the entries in ascending order of their keys -/
def sortKeys (l : Ledger K V) (le : K → K → Bool) : Ledger K V :=
  ⟨l.entries.mergeSort fun a b => le a.1 b.1, ((List.mergeSort_perm _ _).map _).nodup_iff.2 l.distinct⟩

theorem keys_put (l : Ledger K V) (k : K) (v : V) :
    (l.put k v).keys = if k ∈ l.keys then l.keys else l.keys ++ [k] :=
  map_fst_putEntry k v l.entries

theorem has_iff {l : Ledger K V} {k : K} : l.has k = true ↔ k ∈ l.keys := by
  simp [has, keys]

theorem get?_put_self (l : Ledger K V) (k : K) (v : V) : (l.put k v).get? k = some v := by
  obtain ⟨es, h⟩ := l
  simp only [get?, put]
  clear h
  induction es with
  | nil => simp [putEntry]
  | cons e rest ih =>
    by_cases he : e.1 = k
    · simp [putEntry, he]
    · simpa [putEntry, he] using ih

theorem get?_put_of_ne (l : Ledger K V) {k j : K} (v : V) (hj : j ≠ k) : (l.put k v).get? j = l.get? j := by
  obtain ⟨es, h⟩ := l
  simp only [get?, put]
  clear h
  induction es with
  | nil => simp [putEntry, Ne.symm hj]
  | cons e rest ih =>
    by_cases he : e.1 = k
    · subst he
      simp [putEntry, Ne.symm hj]
    · by_cases hej : e.1 = j
      · subst hej
        simp [putEntry, he]
      · simpa [putEntry, he, hej] using ih

end Ledger

end SignalWiring
