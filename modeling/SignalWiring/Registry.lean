/-
The registry: what every artifact has contributed so far.

An entry is stored under the artifact of its own context, and that is part of the type. A replaced entry keeps the place
of its first insertion. Entries go away only by a reset, so an artifact that is no longer scanned keeps its entry, which
is then stale.
-/
import SignalWiring.Context
import SignalWiring.Ledger

namespace SignalWiring

/-- contexts by artifact, in order of discovery -/
structure Registry where
  contexts : Ledger String Context := {}
  keyed : ∀ e ∈ contexts.entries, e.2.artifact = e.1 := by simp

namespace Registry

def empty : Registry := {}

instance : Inhabited Registry := ⟨empty⟩

theorem mem_putEntry {K V : Type} [DecidableEq K] {k : K} {v : V} {es : List (K × V)} {e : K × V}
    (h : e ∈ putEntry k v es) : e = (k, v) ∨ e ∈ es := by
  induction es with
  | nil => simpa [putEntry] using h
  | cons x rest ih =>
    by_cases hx : x.1 = k
    · simp only [putEntry, hx, if_true, List.mem_cons] at h
      rcases h with h | h
      · exact Or.inl h
      · exact Or.inr (List.mem_cons_of_mem _ h)
    · simp only [putEntry, hx, if_false, List.mem_cons] at h
      rcases h with h | h
      · exact Or.inr (h ▸ List.mem_cons_self)
      · rcases ih h with h | h
        · exact Or.inl h
        · exact Or.inr (List.mem_cons_of_mem _ h)

def store (r : Registry) (c : Context) : Registry :=
  ⟨r.contexts.put c.artifact c, by
    intro e he
    rcases mem_putEntry he with h | h
    · subst h; rfl
    · exact r.keyed e h⟩

def storeAll (r : Registry) (cs : List Context) : Registry := cs.foldl store r

/-- store the context of an artifact, unless it is missing or belongs to another -/
def upsert (r : Registry) (artifact : String) (context : Option Context) : Except Fault Registry :=
  match context with
  | none => .error (.absent "context must not be None")
  | some c =>
    if artifact = "" then .error (.rejected artifact "artifact_id must not be empty")
    else if c.artifact ≠ artifact then .error (.rejected artifact s!"context belongs to '{c.artifact}'")
    else .ok (r.store c)

/-- every context of a batch, unless one is missing -/
def present : List (Option Context) → Except Fault (List Context)
  | [] => .ok []
  | none :: _ => .error (.absent "context must not be None")
  | some c :: rest => (present rest).map (c :: ·)

/-- store a batch of contexts, or none of them when one is missing -/
def upsertAll (r : Registry) (batch : List (Option Context)) : Except Fault Registry :=
  (present batch).map r.storeAll

def snapshot (r : Registry) : List Context := r.contexts.values

def get? (r : Registry) (artifact : String) : Option Context := r.contexts.get? artifact

/-- the registered artifacts in order of discovery -/
def artifacts (r : Registry) : List String := r.contexts.keys

/-- the registered artifacts that are not among `live` -/
def stale (r : Registry) (live : List String) : List String := r.artifacts.filter fun a => !live.contains a

def size (r : Registry) : Nat := r.contexts.size

def has (r : Registry) (artifact : String) : Bool := r.contexts.has artifact

end Registry

end SignalWiring
