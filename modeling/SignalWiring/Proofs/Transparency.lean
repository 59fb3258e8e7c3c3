/-
The cache, held against the extractor behind it.

`Held` is what a cache amounts to: for each file name the artifact whose extraction is kept. Extractions, refusals,
invalidations and clearings are followed by `hold`, in which neither digests nor extractions occur. `Agrees` ties a cache
to it, every call keeps that up (`Agrees.step`), and so does a history of calls (`agrees_after`).

- `extract_faithful`: what a cached extractor gives after any history. Artifacts are told apart by file name and text, so
  an artifact is answered with the extraction of one in another folder when the text is the same. The answer is then in
  the wrong file; it is right as long as there is no location to be wrong.
-/
import SignalWiring.Cache
import SignalWiring.CSharp.Outline
import SignalWiring.Proofs.Ledger
import SignalWiring.Proofs.Relocation

namespace SignalWiring

/-- no two of these artifacts have one digest and different texts -/
def CollisionFree (used : List Artifact) : Prop :=
  ∀ a ∈ used, ∀ b ∈ used, a.fingerprint = b.fingerprint → a.content = b.content

theorem CollisionFree.fingerprint_eq_iff {used : List Artifact} (h : CollisionFree used) {a b : Artifact} (ha : a ∈ used)
    (hb : b ∈ used) : a.fingerprint = b.fingerprint ↔ a.content = b.content := by
  refine ⟨h a ha b hb, fun hc => ?_⟩
  rw [Artifact.fingerprint, Artifact.fingerprint, hc]

/-- two texts with different fingerprints -/
theorem CollisionFree.of_two {used : List Artifact} {a b : Artifact} (hab : a.fingerprint ≠ b.fingerprint)
    (hused : ∀ x ∈ used, x.content = a.content ∨ x.content = b.content) : CollisionFree used := by
  have hprint : ∀ {x y : Artifact}, x.content = y.content → x.fingerprint = y.fingerprint := fun h => by
    rw [Artifact.fingerprint, Artifact.fingerprint, h]
  intro x hx y hy hxy
  rcases hused x hx with hxa | hxb <;> rcases hused y hy with hya | hyb
  · exact hxa.trans hya.symm
  · exact absurd ((hprint hxa).symm.trans (hxy.trans (hprint hyb))) hab
  · exact absurd ((hprint hya).symm.trans (hxy.symm.trans (hprint hxb))) hab
  · exact hxb.trans hyb.symm

theorem reading_outcome (read : SourceReader) (config : Config) (a : Artifact) :
    (Extractor.reading read config a).outcome = extract read config a := by
  rw [Extractor.reading]
  split
  · rename_i e he
    exact he.symm
  · rename_i f hf
    exact hf.symm

namespace Cache

/-! ## Histories -/

/-- a call of a cached extractor -/
inductive Call where
  | extract (a : Artifact)
  | invalidate (artifact : String)
  | clear

def Call.artifact? : Call → Option Artifact
  | .extract a => some a
  | _ => none

/-- the cache after a call -/
def step (inner : Extractor) (c : Cache) : Call → Cache
  | .extract a => (c.extract inner a).1
  | .invalidate artifact => c.invalidate artifact
  | .clear => c.clear

/-- the cache after some calls, empty at first -/
def after (inner : Extractor) (calls : List Call) : Cache := calls.foldl (step inner) empty

/-- what an artifact is answered with after some calls -/
def given (inner : Extractor) (calls : List Call) (a : Artifact) : Except Fault Extraction :=
  ((after inner calls).extract inner a).2.outcome

/-! ## What a cache amounts to -/

/-- for each file name the artifact whose extraction is kept -/
abbrev Held := String → Option Artifact

/-- the artifact whose extraction is given for `a`: one of the same name with the same text -/
def answering (held : Held) (a : Artifact) : Option Artifact := (held a.id).filter fun b => b.content = a.content

/-- what is held after a call -/
def hold (inner : Extractor) (held : Held) : Call → Held
  | .extract a =>
    match answering held a, (inner a).outcome with
    | none, .ok _ => Function.update held a.id (some a)
    | _, _ => held
  | .invalidate artifact => Function.update held artifact none
  | .clear => fun _ => none

/-- what is held after some calls, nothing at first -/
def held (inner : Extractor) (calls : List Call) : Held := calls.foldl (hold inner) fun _ => none

theorem answering_eq_some {held : Held} {a b : Artifact} :
    answering held a = some b ↔ held a.id = some b ∧ b.content = a.content := by
  rw [answering, Option.filter_eq_some_iff, decide_eq_true_eq]

/-- a cache keeps the extractions of what is held, under the digests of the texts, and nothing else -/
structure Agrees (inner : Extractor) (used : List Artifact) (c : Cache) (held : Held) : Prop where
  named : ∀ id b, held id = some b → b.id = id
  among : ∀ id b, held id = some b → b ∈ used
  kept : ∀ id b, held id = some b → ∃ e, (inner b).outcome = .ok e ∧ c.entries.get? id = some (b.fingerprint, e)
  absent : ∀ id, held id = none → c.entries.get? id = none

section Agrees

variable {inner : Extractor} {used : List Artifact} {c : Cache} {held : Held} {a b : Artifact}

theorem agrees_empty : Agrees inner used empty fun _ => none where
  named _ _ h := by cases h
  among _ _ h := by cases h
  kept _ _ h := by cases h
  absent _ _ := rfl

theorem Agrees.lookup_of_some (h : Agrees inner used c held) (hb : answering held a = some b) :
    ∃ e, (inner b).outcome = .ok e ∧ c.lookup a = some e := by
  obtain ⟨hheld, htext⟩ := answering_eq_some.1 hb
  obtain ⟨e, he, hget⟩ := h.kept _ _ hheld
  refine ⟨e, he, ?_⟩
  have hprint : b.fingerprint = a.fingerprint := by rw [Artifact.fingerprint, Artifact.fingerprint, htext]
  simp only [lookup, hget, hprint, if_true]

theorem Agrees.lookup_of_none (h : Agrees inner used c held) (hfree : CollisionFree used) (ha : a ∈ used)
    (hnone : answering held a = none) : c.lookup a = none := by
  cases hheld : held a.id with
  | none => simp only [lookup, h.absent _ hheld]
  | some b =>
    obtain ⟨e, -, hget⟩ := h.kept _ _ hheld
    have htext : b.content ≠ a.content := by
      intro htext
      rw [answering_eq_some.2 ⟨hheld, htext⟩] at hnone
      cases hnone
    have hprint : b.fingerprint ≠ a.fingerprint :=
      fun hp => htext ((hfree.fingerprint_eq_iff (h.among _ _ hheld) ha).1 hp)
    simp only [lookup, hget, if_neg hprint]

theorem extract_of_lookup_some {e : Extraction} (h : c.lookup a = some e) :
    c.extract inner a = ({ c with hits := c.hits + 1 }, ⟨.ok e, []⟩) := by
  simp only [extract, h]

theorem extract_of_lookup_none (inner : Extractor) (h : c.lookup a = none) :
    (c.extract inner a).2 = inner a ∧
      (∀ e, (inner a).outcome = .ok e → (c.extract inner a).1 = c.keep a e) ∧
      (∀ f, (inner a).outcome = .error f → (c.extract inner a).1 = c) := by
  simp only [extract, h]
  cases hs : (inner a).outcome with
  | ok e => exact ⟨rfl, fun e' he => (by cases he; rfl), fun f hf => nomatch hf⟩
  | error f => exact ⟨rfl, fun e' he => (nomatch he), fun _ _ => rfl⟩

theorem Agrees.keep {e : Extraction} (h : Agrees inner used c held) (ha : a ∈ used) (he : (inner a).outcome = .ok e) :
    Agrees inner used (c.keep a e) (Function.update held a.id (some a)) := by
  have hsplit : ∀ id b, Function.update held a.id (some a) id = some b →
      (id = a.id ∧ b = a) ∨ (id ≠ a.id ∧ held id = some b) := by
    intro id b hb
    by_cases hid : id = a.id
    · subst hid
      rw [Function.update_self] at hb
      exact Or.inl ⟨rfl, (Option.some.inj hb).symm⟩
    · rw [Function.update_of_ne hid] at hb
      exact Or.inr ⟨hid, hb⟩
  refine ⟨fun id b hb => ?_, fun id b hb => ?_, fun id b hb => ?_, fun id hid => ?_⟩
  · rcases hsplit id b hb with ⟨rfl, rfl⟩ | ⟨-, hb⟩
    · rfl
    · exact h.named id b hb
  · rcases hsplit id b hb with ⟨-, rfl⟩ | ⟨-, hb⟩
    · exact ha
    · exact h.among id b hb
  · rcases hsplit id b hb with ⟨rfl, rfl⟩ | ⟨hne, hb⟩
    · exact ⟨e, he, Ledger.get?_put_self _ _ _⟩
    · obtain ⟨e', he', hget⟩ := h.kept id b hb
      exact ⟨e', he', (Ledger.get?_put_of_ne _ _ hne).trans hget⟩
  · by_cases hne : id = a.id
    · subst hne
      rw [Function.update_self] at hid
      cases hid
    · rw [Function.update_of_ne hne] at hid
      exact (Ledger.get?_put_of_ne _ _ hne).trans (h.absent id hid)

theorem Agrees.invalidate (h : Agrees inner used c held) (artifact : String) :
    Agrees inner used (c.invalidate artifact) (Function.update held artifact none) := by
  have hother : ∀ id b, Function.update held artifact none id = some b → id ≠ artifact ∧ held id = some b := by
    intro id b hb
    by_cases hid : id = artifact
    · subst hid
      rw [Function.update_self] at hb
      cases hb
    · rw [Function.update_of_ne hid] at hb
      exact ⟨hid, hb⟩
  refine ⟨fun id b hb => h.named id b (hother id b hb).2, fun id b hb => h.among id b (hother id b hb).2,
    fun id b hb => ?_, fun id hid => ?_⟩
  · obtain ⟨hne, hb⟩ := hother id b hb
    obtain ⟨e, he, hget⟩ := h.kept id b hb
    exact ⟨e, he, (Ledger.get?_erase_of_ne _ hne).trans hget⟩
  · by_cases hne : id = artifact
    · subst hne
      exact Ledger.get?_erase_self _ _
    · rw [Function.update_of_ne hne] at hid
      exact (Ledger.get?_erase_of_ne _ hne).trans (h.absent id hid)

/-- Every call keeps the cache in agreement with what is held. -/
theorem Agrees.step (h : Agrees inner used c held) (hfree : CollisionFree used) (call : Call)
    (hcall : ∀ a ∈ call.artifact?, a ∈ used) : Agrees inner used (c.step inner call) (hold inner held call) := by
  cases call with
  | extract a =>
    have ha : a ∈ used := hcall a rfl
    cases hans : answering held a with
    | some b =>
      obtain ⟨e, -, hlook⟩ := h.lookup_of_some hans
      have hsame : hold inner held (.extract a) = held := by simp only [hold, hans]
      rw [hsame, Cache.step, extract_of_lookup_some hlook]
      exact ⟨h.named, h.among, h.kept, h.absent⟩
    | none =>
      have hlook := h.lookup_of_none hfree ha hans
      obtain ⟨-, hok, herror⟩ := extract_of_lookup_none inner hlook
      cases hout : (inner a).outcome with
      | ok e =>
        have hnew : hold inner held (.extract a) = Function.update held a.id (some a) := by
          simp only [hold, hans, hout]
        rw [hnew, Cache.step, hok e hout]
        exact h.keep ha hout
      | error f =>
        have hsame : hold inner held (.extract a) = held := by simp only [hold, hans, hout]
        rw [hsame, Cache.step, herror f hout]
        exact h
  | invalidate artifact => exact h.invalidate artifact
  | clear => exact agrees_empty

end Agrees

/-- **Histories.** After any calls the cache agrees with what is held. -/
theorem agrees_after {inner : Extractor} {used : List Artifact} (hfree : CollisionFree used) (calls : List Call)
    (hcalls : ∀ call ∈ calls, ∀ a ∈ call.artifact?, a ∈ used) :
    Agrees inner used (after inner calls) (held inner calls) := by
  suffices hrun : ∀ c h, Agrees inner used c h →
      Agrees inner used (calls.foldl (Cache.step inner) c) (calls.foldl (hold inner) h) from
    hrun empty _ agrees_empty
  induction calls with
  | nil => exact fun c h hagrees => hagrees
  | cons call rest ih =>
    intro c h hagrees
    refine ih (fun x hx => hcalls x (List.mem_cons_of_mem _ hx)) _ _ ?_
    exact hagrees.step hfree call (hcalls call List.mem_cons_self)

/-! ## Transparency -/

section Transparency

variable {parse : String → Option Tree} {config : Config} {calls : List Call} {a b : Artifact}

def artifacts (calls : List Call) : List Artifact := calls.filterMap Call.artifact?

theorem mem_artifacts {call : Call} (hcall : call ∈ calls) (ha : a ∈ call.artifact?) : a ∈ artifacts calls :=
  List.mem_filterMap.2 ⟨call, hcall, ha⟩

/-- the extractor that turns the text of an artifact into a tree and scans it -/
def parsing (parse : String → Option Tree) (config : Config) : Extractor := .reading (.ofText parse) config

theorem parsing_outcome (a : Artifact) :
    (parsing parse config a).outcome = SignalWiring.extract (.ofText parse) config a := reading_outcome _ config a

theorem agrees_history {inner : Extractor} (hfree : CollisionFree (a :: artifacts calls)) :
    Agrees inner (a :: artifacts calls) (after inner calls) (held inner calls) :=
  agrees_after hfree calls fun _ hcall _ hx => List.mem_cons_of_mem _ (mem_artifacts hcall hx)

/-- without an artifact to answer with, the extractor is asked -/
theorem given_of_none {inner : Extractor} (hfree : CollisionFree (a :: artifacts calls))
    (hnone : answering (held inner calls) a = none) : given inner calls a = (inner a).outcome := by
  have hlook := (agrees_history hfree).lookup_of_none hfree List.mem_cons_self hnone
  rw [given, (extract_of_lookup_none inner hlook).1]

/-- an answer is the extraction of the artifact that is held -/
theorem given_of_some {inner : Extractor} (hfree : CollisionFree (a :: artifacts calls))
    (hsome : answering (held inner calls) a = some b) :
    ∃ e, (inner b).outcome = .ok e ∧ given inner calls a = .ok e := by
  obtain ⟨e, he, hlook⟩ := (agrees_history hfree).lookup_of_some hsome
  refine ⟨e, he, ?_⟩
  rw [given, extract_of_lookup_some hlook]

/-- the answer is right but for the file that it points into -/
theorem given_moved (hfree : CollisionFree (a :: artifacts calls))
    (hsome : answering (held (parsing parse config) calls) a = some b) :
    ∃ e, (parsing parse config a).outcome = .ok e ∧ given (parsing parse config) calls a = .ok (e.moved b.path) := by
  obtain ⟨hheld, htext⟩ := answering_eq_some.1 hsome
  have hid : b.id = a.id := (agrees_history hfree).named _ _ hheld
  obtain ⟨e, he, hgiven⟩ := given_of_some hfree hsome
  rw [parsing_outcome] at he
  have ha := extract_moved hid htext he
  refine ⟨_, (parsing_outcome a).trans ha, ?_⟩
  have hb := extract_moved hid.symm htext.symm ha
  rw [he] at hb
  rw [hgiven]
  exact hb

/-- **When the cache is transparent.** What a cached extractor gives after any history: its extractor's own answer when
no extraction of the same name and text is held, and else that answer put into the file of the artifact that is held. So
it gives its extractor's answer exactly when the artifact held has the same path or there is no location in the answer. -/
theorem extract_faithful (parse : String → Option Tree) (config : Config) (calls : List Call) (a : Artifact)
    (hfree : CollisionFree (a :: artifacts calls)) :
    (answering (held (parsing parse config) calls) a = none →
      given (parsing parse config) calls a = (parsing parse config a).outcome) ∧
    (∀ b, answering (held (parsing parse config) calls) a = some b → ∃ e,
      (parsing parse config a).outcome = .ok e ∧ given (parsing parse config) calls a = .ok (e.moved b.path)) ∧
    (given (parsing parse config) calls a = (parsing parse config a).outcome ↔
      ∀ b, answering (held (parsing parse config) calls) a = some b →
        b.path = a.path ∨ ∀ e, (parsing parse config a).outcome = .ok e → e.locations = []) := by
  refine ⟨given_of_none hfree, fun b hb => given_moved hfree hb, ?_⟩
  cases hans : answering (held (parsing parse config) calls) a with
  | none => exact ⟨fun _ b hb => (nomatch hb), fun _ => given_of_none hfree hans⟩
  | some b =>
    obtain ⟨e, he, hgiven⟩ := given_moved hfree hans
    have hextract : SignalWiring.extract (.ofText parse) config a = .ok e := (parsing_outcome a).symm.trans he
    rw [hgiven, he, Except.ok.injEq, Extraction.moved_eq_iff]
    constructor
    · intro hfile b' hb'
      cases hb'
      by_cases hpath : b.path = a.path
      · exact Or.inl hpath
      · refine Or.inr fun e' he' => ?_
        cases he'
        refine (moved_eq_of_extract_iff hextract (b := b) (Ne.symm hpath)).1 ?_
        exact (Extraction.moved_eq_iff.2 hfile).symm
    · intro hright l hl
      rcases hright b rfl with hpath | hnone
      · rw [hpath]
        exact file_of_extract hextract l hl
      · rw [hnone e rfl] at hl
        cases hl

end Transparency

/-! ### A file that is moved -/

namespace Sample

/-- a container in the global namespace, with one handler -/
def jumping : String :=
  "partial class Behavior\n\x7b\n    [Signal] delegate void JumpedEventHandler(int height);\n\x7d\n"

/-- where the file was -/
def before : Artifact := ⟨⟨.here, ["old", "Foo.cs"], by decide⟩, jumping, by decide⟩

/-- where the file is -/
def moved : Artifact := ⟨⟨.here, ["new", "Foo.cs"], by decide⟩, jumping, by decide⟩

/-- every text has an outline -/
def outlined (text : String) : Option Tree := some (CSharp.outline text)

end Sample

theorem extract_faithful_moved :
    CollisionFree [Sample.moved, Sample.before] ∧
    (given (parsing Sample.outlined .standard) [.extract Sample.before] Sample.moved =
        (parsing Sample.outlined .standard Sample.moved).outcome ↔
      ∀ b, answering (held (parsing Sample.outlined .standard) [.extract Sample.before]) Sample.moved = some b →
        b.path = Sample.moved.path ∨
          ∀ e, (parsing Sample.outlined .standard Sample.moved).outcome = .ok e → e.locations = []) := by
  have hfree : CollisionFree [Sample.moved, Sample.before] := by
    intro a ha b hb _
    simp only [List.mem_cons, List.not_mem_nil, or_false] at ha hb
    rcases ha with rfl | rfl <;> rcases hb with rfl | rfl <;> rfl
  exact ⟨hfree, (extract_faithful Sample.outlined .standard [.extract Sample.before] Sample.moved hfree).2.2⟩

/-- **A moved file.** The file is moved and not changed, and the answer still points to where it was. -/
theorem given_of_moved_file :
    given (parsing Sample.outlined .standard) [.extract Sample.before] Sample.moved ≠
      (parsing Sample.outlined .standard Sample.moved).outcome := by
  decide +kernel

end Cache

end SignalWiring
