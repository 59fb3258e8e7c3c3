/-
What an extraction of an artifact is, and how it can fail.

- `scan_meets`: a scan ends in an extraction that fits its artifact, or in a local fault. To fit means that the
  extraction belongs to the artifact, that every handler is called like its event with the suffix after it, and that no
  diagnostic speaks of the registry.
- `scan_cases`: what a scan that ends in an extraction has done; `scan_without_context`: where it gives no context,
  nothing is reported either.
- `extract_fits`, `extract_fault`: the same of reading and scanning, which fails besides when there is no tree.
-/
import SignalWiring.Extraction
import SignalWiring.Proofs.Refusal

namespace SignalWiring

/-- a value, or a local fault -/
def Benign {α : Type} (x : Except Fault α) : Prop := Meets (fun _ => True) x

theorem Benign.bind {α β : Type} {Q : β → Prop} {x : Except Fault α} {f : α → Except Fault β} (hx : Benign x)
    (hf : ∀ a, Meets Q (f a)) : Meets Q (x >>= f) := Meets.bind hx fun a _ => hf a

theorem Benign.map {α β : Type} {x : Except Fault α} {f : α → β} (hx : Benign x) : Benign (x.map f) :=
  Meets.map hx fun _ _ => trivial

theorem Benign.mapM {α β : Type} {f : α → Except Fault β} {as : List α} (h : ∀ a ∈ as, Benign (f a)) :
    Benign (as.mapM f) := (Meets.mapM h).imp fun _ _ => trivial

/-! ## Names that occur twice -/

theorem firstRepeated_eq_none_iff {seen names : List String} :
    firstRepeated seen names = none ↔ names.Nodup ∧ ∀ n ∈ names, n ∉ seen := by
  induction names generalizing seen with
  | nil => simp [firstRepeated]
  | cons n rest ih =>
    rw [firstRepeated, List.contains_eq_mem]
    by_cases hn : n ∈ seen
    · rw [if_pos (decide_eq_true hn)]
      exact ⟨fun h => (nomatch h), fun h => absurd hn (h.2 n List.mem_cons_self)⟩
    · rw [if_neg (by simpa using hn), ih, List.nodup_cons]
      constructor
      · rintro ⟨hnodup, hrest⟩
        refine ⟨⟨fun hmem => hrest n hmem List.mem_cons_self, hnodup⟩, fun m hm => ?_⟩
        rcases List.mem_cons.1 hm with rfl | hm
        · exact hn
        · exact fun hseen => hrest m hm (List.mem_cons_of_mem _ hseen)
      · rintro ⟨⟨hnotin, hnodup⟩, hseen⟩
        refine ⟨hnodup, fun m hm hmem => ?_⟩
        rcases List.mem_cons.1 hmem with rfl | hmem
        · exact hnotin hm
        · exact hseen m (List.mem_cons_of_mem _ hm) hmem

theorem firstRepeated_eq_some {seen names : List String} {n : String} (h : firstRepeated seen names = some n) :
    ∃ before after, names = before ++ n :: after ∧ before.Nodup ∧ (∀ m ∈ before, m ∉ seen) ∧ (n ∈ before ∨ n ∈ seen) := by
  induction names generalizing seen with
  | nil => cases h
  | cons m rest ih =>
    rw [firstRepeated, List.contains_eq_mem] at h
    by_cases hm : m ∈ seen
    · rw [if_pos (decide_eq_true hm), Option.some.injEq] at h
      subst h
      exact ⟨[], rest, rfl, List.nodup_nil, fun _ hx => (nomatch hx), Or.inr hm⟩
    · rw [if_neg (by simpa using hm)] at h
      obtain ⟨before, after, rfl, hnodup, hnew, hn⟩ := ih h
      refine ⟨m :: before, after, rfl, List.nodup_cons.2 ⟨fun hmem => ?_, hnodup⟩, fun x hx => ?_, ?_⟩
      · exact hnew m hmem List.mem_cons_self
      · rcases List.mem_cons.1 hx with rfl | hx
        · exact hm
        · exact fun hseen => hnew x hx (List.mem_cons_of_mem _ hseen)
      · rcases hn with hn | hn
        · exact Or.inl (List.mem_cons_of_mem _ hn)
        · rcases List.mem_cons.1 hn with rfl | hn
          · exact Or.inl List.mem_cons_self
          · exact Or.inr hn

/-- of things that do not all have different names, one is the first to repeat a name -/
theorem exists_first_repeated {α : Type} (name : α → String) {xs : List α} (h : ¬(xs.map name).Nodup) :
    ∃ before x after, xs = before ++ x :: after ∧ (before.map name).Nodup ∧ name x ∈ before.map name ∧
      firstRepeated [] (xs.map name) = some (name x) := by
  cases hfirst : firstRepeated [] (xs.map name) with
  | none => exact absurd (firstRepeated_eq_none_iff.1 hfirst).1 h
  | some n =>
    obtain ⟨names, others, hsplit, hnodup, -, hmem⟩ := firstRepeated_eq_some hfirst
    obtain ⟨before, rest, rfl, rfl, hrest⟩ := List.map_eq_append_iff.1 hsplit
    obtain ⟨x, after, rfl, rfl, -⟩ := List.map_eq_cons_iff.1 hrest
    exact ⟨before, x, after, rfl, hnodup, hmem.resolve_right (fun h => nomatch h), rfl⟩

/-! ## Texts of a tree -/

namespace Tree

theorem source_benign (t : Tree) : Benign t.source := by
  rw [source]
  split
  · exact trivial
  · split
    · exact trivial
    · exact Fault.isLocal_undecodable _

theorem fieldSource_benign (t : Tree) (name : String) : Benign (t.fieldSource name) := by
  rw [fieldSource]
  split
  · exact trivial
  · exact source_benign _

theorem parameterName_benign (t : Tree) : Benign t.parameterName := by
  refine (fieldSource_benign t "name").bind fun name => ?_
  split
  · exact trivial
  · split
    · exact trivial
    · exact source_benign _

theorem parameterNames_benign (t : Tree) : Benign t.parameterNames :=
  Benign.mapM fun c _ => parameterName_benign c

theorem aimsElsewhere_benign (t : Tree) : Benign t.aimsElsewhere := by
  rw [aimsElsewhere]
  split
  · exact trivial
  · exact (source_benign _).map

theorem attributeName_benign (t : Tree) : Benign t.attributeName := by
  refine (fieldSource_benign t "name").bind fun written => ?_
  split
  · exact trivial
  · split
    · exact trivial
    · exact source_benign _

theorem listedClasses_benign (t : Tree) : Benign t.listedClasses := by
  refine (aimsElsewhere_benign t).bind fun elsewhere => ?_
  split
  · exact trivial
  · exact (Benign.mapM fun c _ => attributeName_benign c).bind fun _ => trivial

theorem attributeClasses_benign (t : Tree) : Benign t.attributeClasses :=
  (Benign.mapM fun c _ => listedClasses_benign c).bind fun _ => trivial

theorem isMarked_benign (t : Tree) (marker : String) : Benign (t.isMarked marker) := (attributeClasses_benign t).map

theorem isContainer_benign (name : String) (t : Tree) : Benign (t.isContainer name) := by
  rw [isContainer]
  split
  · exact (fieldSource_benign t "name").map
  · exact trivial

theorem anyContainer_benign (name : String) (above : List Tree) : Benign (anyContainer name above) := by
  induction above with
  | nil => exact trivial
  | cons t rest ih =>
    refine (isContainer_benign name t).bind fun found => ?_
    split
    · exact trivial
    · exact ih

theorem enclosingNames_benign (above : List Tree) : Benign (enclosingNames above) := by
  induction above with
  | nil => exact trivial
  | cons t rest ih =>
    rw [enclosingNames]
    split
    · refine (fieldSource_benign t "name").bind fun name => ?_
      exact ih.bind fun _ => trivial
    · exact ih

theorem precedingName_benign (start : Int) (found : String) (siblings : List Tree) :
    Benign (precedingName start found siblings) := by
  induction siblings generalizing found with
  | nil => exact trivial
  | cons t rest ih =>
    rw [precedingName]
    split
    · exact trivial
    · split
      · exact (fieldSource_benign t "name").bind fun name => ih _
      · exact ih found

end Tree

namespace Place

theorem isOutermost_benign (name : String) (p : Place) : Benign (p.isOutermost name) := by
  refine (Tree.isContainer_benign name p.node).bind fun found => ?_
  split
  · exact (Tree.anyContainer_benign name p.above).bind fun _ => trivial
  · exact trivial

theorem outermost_benign (name : String) (places : List Place) : Benign (outermost name places) := by
  induction places with
  | nil => exact trivial
  | cons p rest ih =>
    refine (isOutermost_benign name p).bind fun keep => ?_
    exact ih.bind fun _ => trivial

theorem containers_benign (name : String) (p : Place) : Benign (p.containers name) := outermost_benign name p.walk

theorem namespaceName_benign (p : Place) : Benign p.namespaceName := by
  refine (Tree.enclosingNames_benign p.above).bind fun names => ?_
  split
  · exact Tree.precedingName_benign _ _ _
  · exact trivial

end Place

/-! ## Locations, diagnostics and handlers -/

theorem Tree.location_benign (t : Tree) (file : Path) : Benign (t.location (some file)) := by
  rw [Tree.location, Location.ofPoint, Location.make]
  split
  · exact Fault.isLocal_invalid fun _ h => by cases h
  · split
    · exact Fault.isLocal_invalid fun _ h => by cases h
    · exact trivial

/-- the diagnostic does not speak of the registry -/
def Diagnostic.OfSource (d : Diagnostic) : Prop := d.kind ≠ .staleRegistryEntry

/-- the diagnostic speaks of a delegate -/
def Diagnostic.OfDelegate (d : Diagnostic) : Prop := d.kind ∈ [.malformedDeclaration, .unresolvedSymbol]

instance (d : Diagnostic) : Decidable d.OfDelegate := inferInstanceAs (Decidable (d.kind ∈ _))

theorem Diagnostic.OfDelegate.ofSource {d : Diagnostic} (h : d.OfDelegate) : d.OfSource := by
  intro hstale
  unfold OfDelegate at h
  rw [hstale] at h
  exact absurd h (by decide)

theorem Diagnostic.make_meets (kind : DiagnosticKind) (severity : Severity) (message artifact : String)
    (location : Option Location) (subject : Option String) :
    Meets (fun d => d.kind = kind) (Diagnostic.make kind severity message artifact location subject) := by
  rw [Diagnostic.make]
  split
  · exact Fault.isLocal_emptyField _
  · split
    · exact Fault.isLocal_emptyField _
    · rfl

theorem stripSuffix_meets (name suffix : String) :
    Meets (fun event => name = event ++ suffix) (stripSuffix name suffix) := by
  rw [stripSuffix]
  split
  · exact Fault.isLocal_emptyField _
  · split
    · exact Fault.isLocal_invalid fun _ h => by cases h
    · rename_i rest hrest
      simp only [Text.dropSuffix?, Option.ite_none_right_eq_some, Option.some.injEq] at hrest
      obtain ⟨hs, rfl⟩ := hrest
      have hcut := List.suffix_iff_eq_append.1 (List.isSuffixOf_iff_suffix.1 hs)
      apply String.toList_injective
      rw [String.toList_append, String.toList_ofList]
      exact hcut.symm

theorem Handler.make_meets (name event : String) (parameters : List String) (location : Option Location) :
    Meets (fun h => h.name = name ∧ h.event = event) (Handler.make name event parameters location) := by
  rw [Handler.make]
  split
  · exact Fault.isLocal_emptyField _
  · split
    · exact Fault.isLocal_emptyField _
    · split
      · split
        · split
          · exact ⟨rfl, rfl⟩
          · exact Fault.isLocal_invalid fun _ h => by cases h
        · exact Fault.isLocal_invalid fun _ h => by cases h
      · exact Fault.isLocal_invalid fun _ h => by cases h

/-- the handler is called like its event with the suffix after it -/
def Handler.Named (suffix : String) (h : Handler) : Prop := h.name = h.event ++ suffix

theorem Handler.ofName_meets (name suffix : String) (parameters : List String) (location : Option Location) :
    Meets (Handler.Named suffix) (Handler.ofName name suffix parameters location) := by
  refine (stripSuffix_meets name suffix).bind fun event hevent => ?_
  refine (Handler.make_meets name event parameters location).imp fun h hh => ?_
  rw [Handler.Named, hh.1, hh.2]
  exact hevent

/-! ## Delegates -/

/-- what may come of a delegate -/
def Outcome.Proper (suffix : String) : Outcome → Prop
  | .ignored => True
  | .record h => h.Named suffix
  | .problem d => d.OfDelegate

namespace Marking

theorem unresolved_meets (suffix : String) (path : Path) (location : Location) (name reason : String) :
    Meets (Outcome.Proper suffix) (unresolved path location name reason) :=
  (Diagnostic.make_meets _ _ _ _ _ _).map fun d hd => by simp [Outcome.Proper, Diagnostic.OfDelegate, hd]

theorem malformed_meets (suffix : String) (path : Path) (location : Location) (name reason : String) :
    Meets (Outcome.Proper suffix) (malformed path location name reason) :=
  (Diagnostic.make_meets _ _ _ _ _ _).map fun d hd => by simp [Outcome.Proper, Diagnostic.OfDelegate, hd]

theorem readSignature_meets (m : Marking) (path : Path) (location : Location) (name : String) (parameters : Tree) :
    Meets (Outcome.Proper m.suffix) (m.readSignature path location name parameters) := by
  refine (Tree.parameterNames_benign parameters).bind fun names => ?_
  split
  · exact unresolved_meets _ _ _ _ _
  · split
    · exact malformed_meets _ _ _ _ _
    · exact (Handler.ofName_meets _ _ _ _).map fun _ h => h

theorem analyze_meets (m : Marking) (t : Tree) (path : Path) :
    Meets (Outcome.Proper m.suffix) (m.analyze (some t) (some path)) := by
  refine (Tree.location_benign t path).bind fun location => ?_
  refine (Tree.fieldSource_benign t "name").bind fun name => ?_
  refine (Tree.isMarked_benign t m.marker).bind fun marked => ?_
  split
  · exact trivial
  · split
    · exact unresolved_meets _ _ _ _ _
    · split
      · exact unresolved_meets _ _ _ _ _
      · split
        · exact malformed_meets _ _ _ _ _
        · exact readSignature_meets _ _ _ _ _

end Marking

/-! ## Scans -/

/-- what an extraction of an artifact has to be -/
structure Extraction.Fits (config : Config) (a : Artifact) (e : Extraction) : Prop where
  artifact : e.artifact = a.id
  named : ∀ c ∈ e.context, ∀ h ∈ c.handlers, h.Named config.suffix
  ofSource : ∀ d ∈ e.diagnostics, d.OfSource

namespace Scan

variable (config : Config) (a : Artifact)

theorem syntaxDiagnostics_meets (artifact : String) (faults : Nat) :
    Meets (fun ds => ∀ d ∈ ds, d.kind = .syntaxError) (syntaxDiagnostics artifact faults) := by
  rw [syntaxDiagnostics]
  split
  · exact fun d hd => by cases hd
  · refine (Diagnostic.make_meets _ _ _ _ _ _).map fun d hd => ?_
    intro x hx
    rw [List.mem_singleton.1 hx]
    exact hd

theorem conflictDiagnostics_meets (chosen : String) (places : List Place) :
    Meets (fun ds => ∀ d ∈ ds, d.kind = .conflictingNamespace) (conflictDiagnostics config a chosen places) := by
  induction places with
  | nil => exact fun d hd => by cases hd
  | cons p rest ih =>
    refine p.namespaceName_benign.bind fun other => ?_
    split
    · exact ih
    · refine (Tree.location_benign p.node a.path).bind fun location => ?_
      refine (Diagnostic.make_meets _ _ _ _ _ _).bind fun d hd => ?_
      refine ih.bind fun more hmore => ?_
      intro x hx
      rcases List.mem_cons.1 hx with rfl | hx
      · exact hd
      · exact hmore x hx

theorem globalDiagnostics_meets (chosen : String) (first : Place) :
    Meets (fun ds => ∀ d ∈ ds, d.kind = .unresolvedNamespace) (globalDiagnostics config a chosen first) := by
  rw [globalDiagnostics]
  split
  · exact fun d hd => by cases hd
  · refine (Tree.location_benign first.node a.path).bind fun location => ?_
    refine (Diagnostic.make_meets _ _ _ _ _ _).bind fun d hd => ?_
    intro x hx
    rw [List.mem_singleton.1 hx]
    exact hd

theorem outcomes_meets (places : List Place) :
    Meets (fun os => ∀ o ∈ os, Outcome.Proper config.suffix o) (outcomes config a places) :=
  Meets.mapM fun p _ => Marking.analyze_meets config.marking p.node a.path

theorem make_context_meets (chosen artifact : String) (handlers : List Handler) :
    Meets (fun c => c.artifact = artifact ∧ c.handlers = handlers) (Context.make (some chosen) artifact handlers) := by
  simp only [Context.make]
  split
  · exact Fault.isLocal_emptyField _
  · exact ⟨rfl, rfl⟩

theorem make_extraction_meets (artifact : String) (context : Option Context) (diagnostics : List Diagnostic) :
    Meets (fun e => e.artifact = artifact ∧ e.context = context ∧ e.diagnostics = diagnostics)
      (Extraction.make artifact context diagnostics) := by
  rw [Extraction.make]
  split
  · exact Fault.isLocal_emptyField _
  · split
    · exact ⟨rfl, rfl, rfl⟩
    · split
      · exact ⟨rfl, rfl, rfl⟩
      · exact Fault.isLocal_invalid fun _ h => by cases h

/-- what is reported of the artifact as a whole -/
theorem kind_of_front {faults conflicts globals : List Diagnostic} {d : Diagnostic}
    (hfaults : ∀ d ∈ faults, d.kind = .syntaxError) (hconflicts : ∀ d ∈ conflicts, d.kind = .conflictingNamespace)
    (hglobals : ∀ d ∈ globals, d.kind = .unresolvedNamespace) (hd : d ∈ faults ++ conflicts ++ globals) :
    d.OfSource ∧ ¬d.OfDelegate := by
  have hkind : d.kind = .syntaxError ∨ d.kind = .conflictingNamespace ∨ d.kind = .unresolvedNamespace := by
    rcases List.mem_append.1 hd with hd | hd
    · exact (List.mem_append.1 hd).imp (hfaults d) fun hd => Or.inl (hconflicts d hd)
    · exact Or.inr (Or.inr (hglobals d hd))
  unfold Diagnostic.OfSource Diagnostic.OfDelegate
  rcases hkind with hkind | hkind | hkind
  all_goals
    rw [hkind]
    decide

/-- **Scans.** A scan ends in an extraction that fits its artifact, or in a local fault. -/
theorem scan_meets (tree : Tree) : Meets (Extraction.Fits config a) (scan config a tree) := by
  refine (Place.containers_benign config.container ⟨tree, []⟩).bind fun found => ?_
  cases found with
  | nil =>
    refine (make_extraction_meets a.id none []).imp fun e ⟨hid, hcontext, hds⟩ => ⟨hid, ?_, ?_⟩
    · rw [hcontext]
      exact fun c hc => by cases hc
    · rw [hds]
      exact fun d hd => by cases hd
  | cons first others =>
    refine (syntaxDiagnostics_meets a.id tree.countFaults).bind fun faults hfaults => ?_
    refine first.namespaceName_benign.bind fun chosen => ?_
    refine (conflictDiagnostics_meets config a chosen others).bind fun conflicts hconflicts => ?_
    refine (globalDiagnostics_meets config a chosen first).bind fun globals hglobals => ?_
    refine (outcomes_meets config a _).bind fun results hresults => ?_
    refine (make_context_meets chosen a.id _).bind fun c ⟨_, hhandlers⟩ => ?_
    refine (make_extraction_meets a.id (some c) _).imp fun e ⟨hid, hcontext, hds⟩ => ⟨hid, ?_, ?_⟩
    · intro c' hc' h hh
      rw [hcontext, Option.mem_some_iff] at hc'
      subst hc'
      rw [hhandlers] at hh
      obtain ⟨o, ho, hr⟩ := List.mem_filterMap.1 hh
      cases o with
      | record h' => cases hr; exact hresults _ ho
      | ignored | problem => cases hr
    · intro d hd
      rw [hds] at hd
      rcases List.mem_append.1 hd with hd | hd
      · exact (kind_of_front hfaults hconflicts hglobals hd).1
      · obtain ⟨o, ho, hr⟩ := List.mem_filterMap.1 hd
        cases o with
        | problem d' => cases hr; exact (hresults _ ho).ofSource
        | ignored | record => cases hr

variable {config : Config} {a : Artifact}

/-- What a scan has done: it found no container, or its handlers and its diagnostics about delegates are the outcomes of
the delegates inside the containers. -/
theorem scan_cases {tree : Tree} {e : Extraction} (h : scan config a tree = .ok e) :
    (Place.containers config.container ⟨tree, []⟩ = .ok [] ∧ e.context = none ∧ e.diagnostics = []) ∨
    ∃ found front results c, found ≠ [] ∧ Place.containers config.container ⟨tree, []⟩ = .ok found ∧
      outcomes config a (delegates found) = .ok results ∧ e.context = some c ∧
      c.handlers = results.filterMap Outcome.record? ∧
      e.diagnostics = front ++ results.filterMap Outcome.problem? ∧ ∀ d ∈ front, ¬d.OfDelegate := by
  obtain ⟨found, hfound, h⟩ := bind_eq_ok h
  cases found with
  | nil =>
    obtain ⟨-, hcontext, hds⟩ := (make_extraction_meets a.id none []).of_ok h
    exact Or.inl ⟨hfound, hcontext, hds⟩
  | cons first others =>
    obtain ⟨faults, hfaults, h⟩ := bind_eq_ok h
    obtain ⟨chosen, -, h⟩ := bind_eq_ok h
    obtain ⟨conflicts, hconflicts, h⟩ := bind_eq_ok h
    obtain ⟨globals, hglobals, h⟩ := bind_eq_ok h
    obtain ⟨results, hresults, h⟩ := bind_eq_ok h
    obtain ⟨c, hc, h⟩ := bind_eq_ok h
    obtain ⟨-, hcontext, hds⟩ := (make_extraction_meets a.id (some c) _).of_ok h
    obtain ⟨-, hhandlers⟩ := (make_context_meets chosen a.id _).of_ok hc
    refine Or.inr ⟨_, _, results, c, List.cons_ne_nil _ _, hfound, hresults, hcontext, hhandlers, hds, fun d hd => ?_⟩
    exact (kind_of_front ((syntaxDiagnostics_meets a.id _).of_ok hfaults)
      ((conflictDiagnostics_meets config a chosen others).of_ok hconflicts)
      ((globalDiagnostics_meets config a chosen first).of_ok hglobals) hd).2

/-- a scan that gives no context reports nothing -/
theorem scan_without_context {tree : Tree} {e : Extraction} (h : scan config a tree = .ok e)
    (hnone : e.context = none) : e.diagnostics = [] := by
  rcases scan_cases h with ⟨-, -, hds⟩ | ⟨found, front, results, c, -, -, -, hcontext, -⟩
  · exact hds
  · rw [hnone] at hcontext
    cases hcontext

end Scan

/-! ## Extraction -/

section Extract

variable {read : SourceReader} {config : Config} {a : Artifact}

theorem extract_eq_scan {tree : Tree} (h : read a = some tree) : extract read config a = Scan.scan config a tree := by
  simp only [extract, readTree, h]
  rfl

theorem extract_eq_unreadable (h : read a = none) :
    extract read config a = .error (.unreadable a.path "parser returned no tree") := by
  simp only [extract, readTree, h]
  rfl

/-- **Extraction.** What is extracted from an artifact fits it. -/
theorem extract_fits {e : Extraction} (h : extract read config a = .ok e) : e.Fits config a := by
  cases hr : read a with
  | none => rw [extract_eq_unreadable hr] at h; cases h
  | some tree => rw [extract_eq_scan hr] at h; exact (Scan.scan_meets config a tree).of_ok h

theorem extract_without_context {e : Extraction} (h : extract read config a = .ok e) (hnone : e.context = none) :
    e.diagnostics = [] := by
  cases hr : read a with
  | none => rw [extract_eq_unreadable hr] at h; cases h
  | some tree => rw [extract_eq_scan hr] at h; exact Scan.scan_without_context h hnone

/-- **Failures.** An extraction fails when there is no tree, and else by a local fault. -/
theorem extract_fault {f : Fault} (h : extract read config a = .error f) :
    f = .unreadable a.path "parser returned no tree" ∨ f.IsLocal := by
  cases hr : read a with
  | none => rw [extract_eq_unreadable hr] at h; cases h; exact Or.inl rfl
  | some tree => rw [extract_eq_scan hr] at h; exact Or.inr ((Scan.scan_meets config a tree).of_error h)

end Extract

end SignalWiring
