/-
What a cached extractor does, told from its history.

`Program` has an extraction statement by statement, over a cache that is watched: whenever the extractor behind the cache
is asked, the artifact is noted. What a statement has changed when a later one fails stays changed, so it is a fact about
the order of statements that a failure leaves nothing behind.

The history of a cached extractor are the events that its calls came to. What it has to give next, and what it has to have
counted, is said about the history alone (`latest`, `Kept`, `Accounted`); no cache occurs there.

- `Program.extract_cases`: an extraction is served from the cache, fetched, or fails.
- `latest_concat`, `kept_iff`: what one more event does to what was given last, and which artifacts are kept.
- `Follows.step`, `follows_after`: a cache follows its history, call by call.
- `extractions_accounted`: what a cached extractor does after any calls, and what it has counted by then.
-/
import Mathlib.Data.List.DropRight
import SignalWiring.Proofs.Transparency

namespace SignalWiring.Cache

/-! ## Statement by statement -/

/-- a cache, and the artifacts that the extractor behind it has been asked for, in order -/
structure Watched where
  cache : Cache
  asked : List Artifact

/-- statements over a watched cache, which may stop with a fault; what they have changed by then stays changed -/
abbrev Program := ExceptT Fault (StateM Watched)

namespace Program

/-- what a program ends with, and the watched cache that it leaves -/
def runOn {α : Type} (p : Program α) (w : Watched) : Except Fault α × Watched := p.run.run w

def alter (f : Cache → Cache) : Program Unit := modify fun w => { w with cache := f w.cache }

def ask (inner : Extractor) (a : Artifact) : Program Extraction := do
  modify fun w => { w with asked := w.asked ++ [a] }
  match (inner a).outcome with
  | .ok e => return e
  | .error fault => throw fault

/-- count a hit and give what is kept -/
def serve (e : Extraction) : Program Extraction := do
  alter fun c => { c with hits := c.hits + 1 }
  return e

/-- ask the extractor, count a miss and keep what it gives -/
def fetch (inner : Extractor) (a : Artifact) : Program Extraction := do
  let e ← ask inner a
  alter fun c => { c with misses := c.misses + 1 }
  alter fun c => { c with entries := c.entries.put a.id (a.fingerprint, e) }
  return e

/-- look the artifact up, and fetch it unless what is kept has the fingerprint of its text -/
def extract (inner : Extractor) (a : Artifact) : Program Extraction := do
  match (← get).cache.entries.get? a.id with
  | some (fingerprint, e) => if fingerprint = a.fingerprint then serve e else fetch inner a
  | none => fetch inner a

section Runs

variable {inner : Extractor} {a : Artifact} {w : Watched} {e : Extraction} {f : Fault}

theorem runOn_extract (inner : Extractor) (a : Artifact) (w : Watched) :
    (extract inner a).runOn w = ((w.cache.lookup a).elim (fetch inner a) serve).runOn w := by
  have hrun : (extract inner a).runOn w =
      (match w.cache.entries.get? a.id with
        | some (fingerprint, e) => if fingerprint = a.fingerprint then serve e else fetch inner a
        | none => fetch inner a : Program Extraction).runOn w := rfl
  rw [hrun, lookup]
  rcases w.cache.entries.get? a.id with _ | ⟨fingerprint, e⟩
  · rfl
  · by_cases hprint : fingerprint = a.fingerprint
    · simp only [if_pos hprint, Option.elim_some]
    · simp only [if_neg hprint, Option.elim_none]

theorem runOn_fetch_of_ok (h : (inner a).outcome = .ok e) :
    (fetch inner a).runOn w = (.ok e, ⟨w.cache.keep a e, w.asked ++ [a]⟩) := by
  simp only [fetch, ask, h]
  rfl

theorem runOn_fetch_of_error (h : (inner a).outcome = .error f) :
    (fetch inner a).runOn w = (.error f, ⟨w.cache, w.asked ++ [a]⟩) := by
  simp only [fetch, ask, h]
  rfl

/-- **One extraction.** It is served from the cache and the extractor is not asked, or the extractor is asked once; what it
gives is kept then, and a failure leaves the cache as it was. -/
theorem extract_cases (inner : Extractor) (a : Artifact) (w : Watched) :
    (∃ e, w.cache.lookup a = some e ∧
      (extract inner a).runOn w = (.ok e, ⟨{ w.cache with hits := w.cache.hits + 1 }, w.asked⟩)) ∨
    (∃ e, w.cache.lookup a = none ∧ (inner a).outcome = .ok e ∧
      (extract inner a).runOn w = (.ok e, ⟨w.cache.keep a e, w.asked ++ [a]⟩)) ∨
    ∃ f, w.cache.lookup a = none ∧ (inner a).outcome = .error f ∧
      (extract inner a).runOn w = (.error f, ⟨w.cache, w.asked ++ [a]⟩) := by
  rw [runOn_extract]
  cases w.cache.lookup a with
  | some e => exact Or.inl ⟨e, rfl, rfl⟩
  | none =>
    cases hout : (inner a).outcome with
    | ok e => exact Or.inr (Or.inl ⟨e, rfl, rfl, runOn_fetch_of_ok hout⟩)
    | error f => exact Or.inr (Or.inr ⟨f, rfl, rfl, runOn_fetch_of_error hout⟩)

/-- The program gives what the cached extractor gives, and leaves its cache. -/
theorem runOn_extract_eq (inner : Extractor) (a : Artifact) (w : Watched) :
    ((extract inner a).runOn w).1 = (w.cache.extract inner a).2.outcome ∧
      ((extract inner a).runOn w).2.cache = (w.cache.extract inner a).1 := by
  rcases extract_cases inner a w with ⟨e, hlook, hrun⟩ | ⟨e, hlook, hout, hrun⟩ | ⟨f, hlook, hout, hrun⟩
  · rw [hrun, extract_of_lookup_some hlook]
    exact ⟨rfl, rfl⟩
  · obtain ⟨hscanned, hok, -⟩ := extract_of_lookup_none inner hlook
    rw [hrun, hscanned, hok e hout, hout]
    exact ⟨rfl, rfl⟩
  · obtain ⟨hscanned, -, herror⟩ := extract_of_lookup_none inner hlook
    rw [hrun, hscanned, herror f hout, hout]
    exact ⟨rfl, rfl⟩

end Runs

end Program

/-! ## Histories -/

/-- what a call came to; for an extraction what it gave, and which artifacts the extractor was asked for meanwhile -/
inductive Event where
  | extracted (a : Artifact) (outcome : Except Fault Extraction) (asked : List Artifact)
  | invalidated (artifact : String)
  | cleared

namespace Event

/-- the artifact of an extraction that did not fail, and what was given -/
def given? : Event → Option (Artifact × Extraction)
  | .extracted a (.ok e) _ => some (a, e)
  | _ => none

/-- the event is an extraction that did not fail -/
def succeeds (event : Event) : Bool := event.given?.isSome

/-- the extractor was asked meanwhile -/
def asks : Event → Bool
  | .extracted _ _ asked => !asked.isEmpty
  | _ => false

def clears : Event → Bool
  | .cleared => true
  | _ => false

/-- the event is a clearing or an invalidation of the artifact -/
def drops (id : String) : Event → Bool
  | .extracted .. => false
  | .invalidated artifact => artifact == id
  | .cleared => true

end Event

/-- what a call of a cached extractor comes to -/
def eventOf (inner : Extractor) (c : Cache) : Call → Event
  | .extract a =>
    let (outcome, w) := (Program.extract inner a).runOn ⟨c, []⟩
    .extracted a outcome w.asked
  | .invalidate artifact => .invalidated artifact
  | .clear => .cleared

/-- what some calls come to, one after the other -/
def eventsFrom (inner : Extractor) (c : Cache) : List Call → List Event
  | [] => []
  | call :: rest => eventOf inner c call :: eventsFrom inner (c.step inner call) rest

/-- what some calls have come to, with nothing kept at first -/
def history (inner : Extractor) (calls : List Call) : List Event := eventsFrom inner empty calls

/-! ## What a history says -/

/-- the events since the last clearing -/
def sinceCleared (history : List Event) : List Event := history.rtakeWhile fun event => !event.clears

/-- the last extraction of an artifact that did not fail, since the last clearing or invalidation of the artifact -/
def latest (history : List Event) (id : String) : Option (Artifact × Extraction) :=
  (((history.rtakeWhile fun event => !event.drops id).filterMap Event.given?).filter fun s => s.1.id = id).getLast?

/-- the artifact was extracted without a failure, and there was no clearing and no invalidation of it afterwards -/
def Kept (history : List Event) (id : String) : Prop :=
  ∃ before a e asked after, history = before ++ .extracted a (.ok e) asked :: after ∧ a.id = id ∧
    .cleared ∉ after ∧ .invalidated id ∉ after

/-- sizes and counts are those of a history -/
structure Accounted (history : List Event) (c : Cache) : Prop where
  /-- as many extractions are kept as there are artifacts to keep one of -/
  size : c.size = {id | Kept history id}.ncard
  /-- every extraction that did not fail since the last clearing counts once -/
  served : c.hits + c.misses = (sinceCleared history).countP fun event => event.succeeds
  /-- and it counts as a miss when the extractor was asked -/
  missed : c.misses = (sinceCleared history).countP fun event => event.succeeds && event.asks

/-- what an extraction does in a watched cache with a history -/
structure Answers (inner : Extractor) (history : List Event) (a : Artifact) (w : Watched) : Prop where
  /-- what was given last is given again while the text has the same fingerprint; the extractor is not asked -/
  again : ∀ b e, latest history a.id = some (b, e) → b.fingerprint = a.fingerprint →
    ∃ c, (Program.extract inner a).runOn w = (.ok e, ⟨c, w.asked⟩)
  /-- otherwise the extractor is asked, and what comes of that is passed on -/
  afresh : (∀ b e, latest history a.id = some (b, e) → b.fingerprint ≠ a.fingerprint) →
    ∃ c, (Program.extract inner a).runOn w = ((inner a).outcome, ⟨c, w.asked ++ [a]⟩)
  /-- a failure is the extractor's, and leaves entries and counters as they were -/
  failed : ∀ f left, (Program.extract inner a).runOn w = (.error f, left) →
    (inner a).outcome = .error f ∧ left.cache = w.cache
  /-- a cached extractor gives the same, and leaves the same cache -/
  outcome : (w.cache.extract inner a).2.outcome = ((Program.extract inner a).runOn w).1
  cache : (w.cache.extract inner a).1 = ((Program.extract inner a).runOn w).2.cache

section History

variable {events : List Event} {event : Event} {id : String}

theorem sinceCleared_concat (h : event.clears = false) :
    sinceCleared (events ++ [event]) = sinceCleared events ++ [event] :=
  List.rtakeWhile_concat_pos _ _ _ (by rw [h]; rfl)

/-- a clearing or an invalidation leaves nothing to be given again -/
theorem latest_concat_of_drops (h : event.drops id = true) : latest (events ++ [event]) id = none := by
  rw [latest, List.rtakeWhile_concat_neg _ _ _ (by simp [h])]
  rfl

/-- what an extraction of the artifact gives is what was given last from then on -/
theorem latest_concat_of_given {a : Artifact} {e : Extraction} (h : event.given? = some (a, e)) (hid : a.id = id) :
    latest (events ++ [event]) id = some (a, e) := by
  have hstays : event.drops id = false := by
    cases event with
    | extracted => rfl
    | invalidated | cleared => cases h
  rw [latest, List.rtakeWhile_concat_pos _ _ _ (by simp [hstays]), List.filterMap_append, List.filter_append,
    List.filterMap_cons_some h, List.filterMap_nil, List.filter_cons_of_pos (by simpa using hid), List.filter_nil,
    List.getLast?_concat]

/-- no other event changes what was given last -/
theorem latest_concat_of_other (hstays : event.drops id = false) (h : ∀ a e, event.given? = some (a, e) → a.id ≠ id) :
    latest (events ++ [event]) id = latest events id := by
  have hnothing : ([event].filterMap Event.given?).filter (fun s => s.1.id = id) = [] := by
    refine List.filter_eq_nil_iff.2 fun s hs => ?_
    obtain ⟨x, hx, hgiven⟩ := List.mem_filterMap.1 hs
    rw [List.mem_singleton.1 hx] at hgiven
    simpa using h _ _ hgiven
  rw [latest, List.rtakeWhile_concat_pos _ _ _ (by simp [hstays]), List.filterMap_append, List.filter_append, hnothing,
    List.append_nil, latest]

/-- an artifact is kept when it has just been extracted, or when it was kept and has not been dropped -/
theorem kept_concat : Kept (events ++ [event]) id ↔
    (∃ a e, event.given? = some (a, e) ∧ a.id = id) ∨ event.drops id = false ∧ Kept events id := by
  constructor
  · rintro ⟨before, a, e, asked, after, hsplit, hid, hclear, hinvalidated⟩
    rcases List.eq_nil_or_concat' after with rfl | ⟨after, last, rfl⟩
    · obtain ⟨-, heq⟩ := List.append_inj' hsplit rfl
      rw [List.singleton_inj.1 heq]
      exact Or.inl ⟨a, e, rfl, hid⟩
    · rw [← List.cons_append, ← List.append_assoc] at hsplit
      obtain ⟨hevents, heq⟩ := List.append_inj' hsplit rfl
      obtain rfl := List.singleton_inj.1 heq
      rw [List.mem_append, not_or] at hclear hinvalidated
      refine Or.inr ⟨?_, before, a, e, asked, after, hevents, hid, hclear.1, hinvalidated.1⟩
      cases event with
      | extracted => rfl
      | invalidated artifact =>
        have hother : artifact ≠ id := fun h => hinvalidated.2 (by rw [h]; exact List.mem_singleton_self _)
        exact beq_eq_false_iff_ne.2 hother
      | cleared => exact absurd (List.mem_singleton_self _) hclear.2
  · rintro (⟨a, e, hgiven, hid⟩ | ⟨hstays, before, a, e, asked, after, rfl, hid, hclear, hinvalidated⟩)
    · cases event with
      | extracted b outcome asked =>
        cases outcome with
        | ok e' =>
          cases hgiven
          exact ⟨events, a, e, asked, [], rfl, hid, List.not_mem_nil, List.not_mem_nil⟩
        | error f => cases hgiven
      | invalidated | cleared => cases hgiven
    · refine ⟨before, a, e, asked, after ++ [event], by simp, hid, fun hmem => ?_, fun hmem => ?_⟩
      · rcases List.mem_append.1 hmem with hmem | hmem
        · exact hclear hmem
        · rw [← List.mem_singleton.1 hmem] at hstays
          cases hstays
      · rcases List.mem_append.1 hmem with hmem | hmem
        · exact hinvalidated hmem
        · rw [← List.mem_singleton.1 hmem] at hstays
          exact beq_eq_false_iff_ne.1 hstays rfl

/-- **Kept artifacts.** An artifact is kept when something was given last that can be given again. -/
theorem kept_iff : Kept events id ↔ ∃ s, latest events id = some s := by
  induction events using List.reverseRecOn with
  | nil =>
    refine iff_of_false ?_ fun ⟨s, hs⟩ => nomatch hs
    rintro ⟨before, a, e, asked, after, hsplit, -⟩
    exact List.append_ne_nil_of_right_ne_nil before (List.cons_ne_nil _ _) hsplit.symm
  | append_singleton events event ih =>
    rw [kept_concat, ih]
    by_cases hgiven : ∃ a e, event.given? = some (a, e) ∧ a.id = id
    · obtain ⟨a, e, hevent, hid⟩ := hgiven
      exact iff_of_true (Or.inl ⟨a, e, hevent, hid⟩) ⟨_, latest_concat_of_given hevent hid⟩
    · cases hdrops : event.drops id with
      | true =>
        rw [latest_concat_of_drops hdrops]
        exact iff_of_false (fun h => h.elim hgiven fun h => nomatch h.1) fun ⟨s, hs⟩ => nomatch hs
      | false =>
        rw [latest_concat_of_other hdrops fun a e hevent hid => hgiven ⟨a, e, hevent, hid⟩]
        exact ⟨fun h => (h.resolve_left hgiven).2, fun h => Or.inr ⟨rfl, h⟩⟩

end History

/-! ## Following a history -/

/-- a cache keeps what its history has to give again, and has counted its extractions -/
structure Follows (events : List Event) (c : Cache) : Prop where
  entries : ∀ id, c.entries.get? id = (latest events id).map fun s => (s.1.fingerprint, s.2)
  served : c.hits + c.misses = (sinceCleared events).countP fun event => event.succeeds
  missed : c.misses = (sinceCleared events).countP fun event => event.succeeds && event.asks

section Follows

variable {inner : Extractor} {events : List Event} {c : Cache} {a : Artifact} {e : Extraction} {asked : List Artifact}

theorem lookup_eq_some : c.lookup a = some e ↔ c.entries.get? a.id = some (a.fingerprint, e) := by
  rw [lookup]
  rcases c.entries.get? a.id with _ | ⟨fingerprint, e'⟩
  · simp
  · by_cases hprint : fingerprint = a.fingerprint
    · simp [hprint]
    · simp [hprint]

theorem follows_empty : Follows [] empty := ⟨fun _ => rfl, rfl, rfl⟩

/-- An extraction that succeeds is kept under its artifact, and counts. -/
theorem Follows.given {c' : Cache} (h : Follows events c)
    (hself : c'.entries.get? a.id = some (a.fingerprint, e))
    (hothers : ∀ id, id ≠ a.id → c'.entries.get? id = c.entries.get? id)
    (hserved : c'.hits + c'.misses = c.hits + c.misses + 1)
    (hmissed : c'.misses = c.misses + if asked.isEmpty then 0 else 1) :
    Follows (events ++ [.extracted a (.ok e) asked]) c' := by
  refine ⟨fun id => ?_, ?_, ?_⟩
  · by_cases hid : id = a.id
    · subst hid
      rw [latest_concat_of_given rfl rfl, hself]
      rfl
    · have hsame : latest (events ++ [.extracted a (.ok e) asked]) id = latest events id :=
        latest_concat_of_other rfl fun b e' hb => by
          cases hb
          exact Ne.symm hid
      rw [hsame, hothers id hid, h.entries]
  · rw [sinceCleared_concat rfl, List.countP_append, ← h.served, hserved]
    rfl
  · rw [sinceCleared_concat rfl, List.countP_append, ← h.missed, hmissed]
    cases asked <;> rfl

/-- What gives nothing and is no clearing counts for nothing; what it drops is kept no longer. -/
theorem Follows.uncounted {event : Event} {c' : Cache} (h : Follows events c) (hnothing : event.given? = none)
    (hstays : event.clears = false)
    (hentries : ∀ id, c'.entries.get? id = if event.drops id then none else c.entries.get? id)
    (hserved : c'.hits + c'.misses = c.hits + c.misses) (hmissed : c'.misses = c.misses) :
    Follows (events ++ [event]) c' := by
  have hfails : event.succeeds = false := by
    rw [Event.succeeds, hnothing]
    rfl
  refine ⟨fun id => ?_, ?_, ?_⟩
  · rw [hentries]
    cases hdrops : event.drops id with
    | true =>
      rw [latest_concat_of_drops hdrops]
      rfl
    | false =>
      have hsame : latest (events ++ [event]) id = latest events id :=
        latest_concat_of_other hdrops fun a e hgiven => nomatch hnothing.symm.trans hgiven
      rw [hsame, ← h.entries]
      rfl
  · rw [sinceCleared_concat hstays, List.countP_append, ← h.served, hserved, List.countP_singleton, hfails]
    rfl
  · rw [sinceCleared_concat hstays, List.countP_append, ← h.missed, hmissed, List.countP_singleton, hfails]
    rfl

/-- A failure changes nothing and does not count. -/
theorem Follows.failed (h : Follows events c) (f : Fault) :
    Follows (events ++ [.extracted a (.error f) asked]) c := h.uncounted rfl rfl (fun _ => rfl) rfl rfl

/-- An invalidation drops its artifact, and counts for nothing. -/
theorem Follows.invalidated (h : Follows events c) (artifact : String) :
    Follows (events ++ [.invalidated artifact]) (c.invalidate artifact) := by
  refine h.uncounted rfl rfl (fun id => ?_) rfl rfl
  have hdrops : (Event.invalidated artifact).drops id = (artifact == id) := rfl
  by_cases hid : artifact = id
  · subst hid
    rw [hdrops, if_pos (beq_self_eq_true artifact)]
    exact Ledger.get?_erase_self _ _
  · rw [hdrops, if_neg fun heq => hid (beq_iff_eq.1 heq)]
    exact Ledger.get?_erase_of_ne _ (Ne.symm hid)

/-- A clearing leaves nothing, and counting starts again. -/
theorem follows_cleared (events : List Event) : Follows (events ++ [.cleared]) empty := by
  have hsince : sinceCleared (events ++ [.cleared]) = [] := List.rtakeWhile_concat_neg _ _ _ (by decide)
  refine ⟨fun id => ?_, ?_, ?_⟩
  · rw [latest_concat_of_drops rfl]
    rfl
  · rw [hsince]
    rfl
  · rw [hsince]
    rfl

/-- **Calls.** Every call keeps the cache in step with the history. -/
theorem Follows.step (h : Follows events c) (inner : Extractor) (call : Call) :
    Follows (events ++ [eventOf inner c call]) (c.step inner call) := by
  cases call with
  | extract a =>
    have hleft : c.step inner (.extract a) = ((Program.extract inner a).runOn ⟨c, []⟩).2.cache :=
      (Program.runOn_extract_eq inner a ⟨c, []⟩).2.symm
    rw [hleft, eventOf]
    rcases Program.extract_cases inner a ⟨c, []⟩ with ⟨e, hlook, hrun⟩ | ⟨e, -, -, hrun⟩ | ⟨f, -, -, hrun⟩
    · rw [hrun]
      exact h.given (lookup_eq_some.1 hlook) (fun _ _ => rfl) (Nat.add_right_comm c.hits 1 c.misses) rfl
    · rw [hrun]
      exact h.given (Ledger.get?_put_self _ _ _) (fun _ hid => Ledger.get?_put_of_ne _ _ hid) rfl rfl
    · rw [hrun]
      exact h.failed f
  | invalidate artifact => exact h.invalidated artifact
  | clear => exact follows_cleared events

theorem Follows.accounted (h : Follows events c) : Accounted events c := by
  refine ⟨?_, h.served, h.missed⟩
  have hkeys : {id | Kept events id} = c.entries.keys.toFinset := by
    ext id
    rw [Set.mem_ofPred_eq, kept_iff, Finset.mem_coe, List.mem_toFinset, Ledger.mem_keys]
    constructor
    · rintro ⟨s, hs⟩
      exact ⟨_, Ledger.get?_eq_some_iff.1 (by rw [h.entries, hs]; rfl)⟩
    · rintro ⟨v, hv⟩
      have hget := h.entries id
      rw [Ledger.get?_eq_some_iff.2 hv] at hget
      obtain ⟨s, hs, -⟩ := Option.map_eq_some_iff.1 hget.symm
      exact ⟨s, hs⟩
  rw [hkeys, Set.ncard_coe_finset, List.toFinset_card_of_nodup c.entries.keys_nodup, Cache.size, Ledger.size,
    Ledger.keys, List.length_map]

/-- an extraction is served exactly when what was given last had the same fingerprint -/
theorem Follows.lookup_eq_some (h : Follows events c) :
    c.lookup a = some e ↔ ∃ b, latest events a.id = some (b, e) ∧ b.fingerprint = a.fingerprint := by
  rw [Cache.lookup_eq_some, h.entries, Option.map_eq_some_iff]
  constructor
  · rintro ⟨⟨b, e'⟩, hlatest, heq⟩
    obtain ⟨hprint, rfl⟩ := Prod.mk.inj heq
    exact ⟨b, hlatest, hprint⟩
  · rintro ⟨b, hlatest, hprint⟩
    exact ⟨(b, e), hlatest, by rw [hprint]⟩

/-- **The next extraction.** What it comes to follows from the history. -/
theorem Follows.answers (h : Follows events c) (inner : Extractor) (a : Artifact) (asked : List Artifact) :
    Answers inner events a ⟨c, asked⟩ := by
  obtain ⟨houtcome, hcache⟩ := Program.runOn_extract_eq inner a ⟨c, asked⟩
  refine ⟨fun b e hlatest hprint => ?_, fun hother => ?_, fun f left hfailed => ?_, houtcome.symm, hcache.symm⟩
  · have hlook : c.lookup a = some e := h.lookup_eq_some.2 ⟨b, hlatest, hprint⟩
    rw [Program.runOn_extract, hlook]
    exact ⟨_, rfl⟩
  · rcases Program.extract_cases inner a ⟨c, asked⟩ with ⟨e, hlook, -⟩ | ⟨e, -, hout, hrun⟩ | ⟨f, -, hout, hrun⟩
    · obtain ⟨b, hlatest, hprint⟩ := h.lookup_eq_some.1 hlook
      exact absurd hprint (hother b e hlatest)
    · rw [hrun, hout]
      exact ⟨_, rfl⟩
    · rw [hrun, hout]
      exact ⟨_, rfl⟩
  · rcases Program.extract_cases inner a ⟨c, asked⟩ with ⟨e, -, hrun⟩ | ⟨e, -, -, hrun⟩ | ⟨f', -, hout, hrun⟩
    · rw [hrun] at hfailed
      cases hfailed
    · rw [hrun] at hfailed
      cases hfailed
    · rw [hrun] at hfailed
      cases hfailed
      exact ⟨hout, rfl⟩

end Follows

/-- **Histories.** After any calls the cache follows what they came to. -/
theorem follows_after (inner : Extractor) (calls : List Call) : Follows (history inner calls) (after inner calls) := by
  suffices hrun : ∀ written c, Follows written c →
      Follows (written ++ eventsFrom inner c calls) (calls.foldl (Cache.step inner) c) from hrun [] empty follows_empty
  induction calls with
  | nil =>
    intro written c h
    rw [eventsFrom, List.append_nil]
    exact h
  | cons call rest ih =>
    intro written c h
    rw [eventsFrom, List.append_cons]
    exact ih _ _ (h.step inner call)

/-- **What a cached extractor does.** After any calls, an extraction gives again what the last extraction of the artifact
gave, and does not ask the extractor, as long as that was not dropped and the text has the same fingerprint; otherwise it
asks the extractor, passes on what comes of that, and changes nothing if that is a failure. Size and counters are those of
the history. -/
theorem extractions_accounted (inner : Extractor) (calls : List Call) :
    Accounted (history inner calls) (after inner calls) ∧
    ∀ a asked, Answers inner (history inner calls) a ⟨after inner calls, asked⟩ :=
  ⟨(follows_after inner calls).accounted, fun a asked => (follows_after inner calls).answers inner a asked⟩

end SignalWiring.Cache
