/-
The same text in another folder.

A scan looks at the path of its artifact for two things: the file name, and the file that locations are in. `moved` puts
everything into another file and leaves the rest as it is.

- `scan_moved`, `extract_moved`: artifacts of one name and one text have the same extraction, apart from the file that
  its locations are in.
- `file_of_extract`: every location of an extraction is in the file of its artifact.
- `Extraction.moved_eq_iff`: a move is seen exactly when there is a location to see it by.
-/
import SignalWiring.Proofs.Scanning

namespace SignalWiring

/-! ## Moving -/

/-- the same place in another file -/
def Location.moved (file : Path) (l : Location) : Location := { l with file := file }

def Handler.moved (file : Path) (h : Handler) : Handler := { h with location := h.location.map (Location.moved file) }

def Diagnostic.moved (file : Path) (d : Diagnostic) : Diagnostic :=
  { d with location := d.location.map (Location.moved file) }

def Outcome.moved (file : Path) : Outcome → Outcome
  | .ignored => .ignored
  | .record h => .record (h.moved file)
  | .problem d => .problem (d.moved file)

/-- the context with its handlers in another file -/
def Context.moved (file : Path) (c : Context) : Context := { c with handlers := c.handlers.map (Handler.moved file) }

def Extraction.moved (file : Path) (e : Extraction) : Extraction where
  artifact := e.artifact
  context := e.context.map (Context.moved file)
  diagnostics := e.diagnostics.map (Diagnostic.moved file)
  artifact_ne := e.artifact_ne
  context_artifact := by
    intro c hc
    obtain ⟨d, hd, rfl⟩ := Option.mem_map.1 hc
    exact e.context_artifact d hd

/-- the locations of an extraction, those of its handlers first -/
def Extraction.locations (e : Extraction) : List Location :=
  (e.context.toList.flatMap Context.handlers).filterMap Handler.location ++ e.diagnostics.filterMap Diagnostic.location

theorem Location.moved_eq_iff {file : Path} {l : Location} : l.moved file = l ↔ l.file = file := by
  refine ⟨fun h => by rw [← h]; rfl, fun h => ?_⟩
  subst h
  rfl

theorem Location.map_moved_eq_iff {file : Path} {l : Option Location} :
    l.map (Location.moved file) = l ↔ ∀ x ∈ l, x.file = file := by
  cases l with
  | none => exact ⟨fun _ x hx => (Option.not_mem_none x hx).elim, fun _ => rfl⟩
  | some x =>
    rw [Option.map_some, Option.some.injEq, Location.moved_eq_iff]
    exact ⟨fun h y hy => by rw [← Option.mem_some_iff.1 hy]; exact h, fun h => h x rfl⟩

theorem Handler.moved_eq_iff {file : Path} {h : Handler} : h.moved file = h ↔ ∀ l ∈ h.location, l.file = file := by
  rw [← Location.map_moved_eq_iff]
  exact ⟨fun hm => congrArg Handler.location hm, fun hl => Handler.ext rfl rfl rfl hl⟩

theorem Diagnostic.moved_eq_iff {file : Path} {d : Diagnostic} :
    d.moved file = d ↔ ∀ l ∈ d.location, l.file = file := by
  rw [← Location.map_moved_eq_iff]
  exact ⟨fun hm => congrArg Diagnostic.location hm, fun hl => Diagnostic.ext rfl rfl rfl rfl hl rfl⟩

theorem map_eq_self_iff {α : Type} {f : α → α} {as : List α} : as.map f = as ↔ ∀ a ∈ as, f a = a := by
  rw [← List.map_inj_left, List.map_id']

theorem Context.moved_eq_iff {file : Path} {c : Context} :
    c.moved file = c ↔ ∀ h ∈ c.handlers, ∀ l ∈ h.location, l.file = file := by
  have hmap : c.handlers.map (Handler.moved file) = c.handlers ↔
      ∀ h ∈ c.handlers, ∀ l ∈ h.location, l.file = file := by
    rw [map_eq_self_iff]
    exact forall₂_congr fun h _ => Handler.moved_eq_iff
  rw [← hmap]
  exact ⟨fun hm => congrArg Context.handlers hm, fun hh => Context.ext rfl rfl hh⟩

/-- **Seeing a move.** An extraction is the same in another file exactly when all its locations are in that file. -/
theorem Extraction.moved_eq_iff {file : Path} {e : Extraction} :
    e.moved file = e ↔ ∀ l ∈ e.locations, l.file = file := by
  have hcontext : e.context.map (Context.moved file) = e.context ↔
      ∀ l ∈ (e.context.toList.flatMap Context.handlers).filterMap Handler.location, l.file = file := by
    cases e.context with
    | none => simp
    | some c =>
      rw [Option.map_some, Option.some.injEq, Context.moved_eq_iff]
      simp only [Option.toList_some, List.flatMap_cons, List.flatMap_nil, List.append_nil, List.mem_filterMap,
        forall_exists_index, and_imp, Option.mem_def]
      exact ⟨fun h l x hx hl => h x hx l hl, fun h x hx l hl => h l x hx hl⟩
  have hdiagnostics : e.diagnostics.map (Diagnostic.moved file) = e.diagnostics ↔
      ∀ l ∈ e.diagnostics.filterMap Diagnostic.location, l.file = file := by
    rw [map_eq_self_iff]
    simp only [Diagnostic.moved_eq_iff, List.mem_filterMap, forall_exists_index, and_imp, Option.mem_def]
    exact ⟨fun h l x hx hl => h x hx l hl, fun h x hx l hl => h l x hx hl⟩
  simp only [locations, List.mem_append, or_imp, forall_and]
  rw [← hcontext, ← hdiagnostics]
  exact ⟨fun hm => ⟨congrArg Extraction.context hm, congrArg Extraction.diagnostics hm⟩,
    fun h => Extraction.ext rfl h.1 h.2⟩

/-! ## Scanning in another folder -/

theorem Tree.location_moved (t : Tree) (p q : Path) :
    t.location (some q) = (t.location (some p)).map (Location.moved q) := by
  simp only [Tree.location, Location.ofPoint, Location.make]
  split
  · rfl
  · split
    · rfl
    · rfl

theorem Diagnostic.make_moved (q : Path) (kind : DiagnosticKind) (severity : Severity) (message artifact : String)
    (location : Option Location) (subject : Option String) :
    Diagnostic.make kind severity message artifact (location.map (Location.moved q)) subject =
      (Diagnostic.make kind severity message artifact location subject).map (Diagnostic.moved q) := by
  simp only [Diagnostic.make]
  split
  · rfl
  · split
    · rfl
    · rfl

theorem Handler.ofName_moved (q : Path) (name suffix : String) (parameters : List String) (location : Option Location) :
    Handler.ofName name suffix parameters (location.map (Location.moved q)) =
      (Handler.ofName name suffix parameters location).map (Handler.moved q) := by
  have hmake : ∀ event, Handler.make name event parameters (location.map (Location.moved q)) =
      (Handler.make name event parameters location).map (Handler.moved q) := by
    intro event
    simp only [Handler.make]
    split
    · rfl
    · split
      · rfl
      · split
        · split
          · split
            · rfl
            · rfl
          · rfl
        · rfl
  exact bind_same hmake

namespace Marking

variable {p q : Path}

theorem unresolved_moved (hpq : p.name = q.name) (l : Location) (name reason : String) :
    unresolved q (l.moved q) name reason = (unresolved p l name reason).map (Outcome.moved q) := by
  rw [unresolved, unresolved, hpq]
  exact map_map (Diagnostic.make_moved q _ _ _ _ (some l) _) fun d => rfl

theorem malformed_moved (hpq : p.name = q.name) (l : Location) (name reason : String) :
    malformed q (l.moved q) name reason = (malformed p l name reason).map (Outcome.moved q) := by
  rw [malformed, malformed, hpq]
  exact map_map (Diagnostic.make_moved q _ _ _ _ (some l) _) fun d => rfl

theorem readSignature_moved (hpq : p.name = q.name) (m : Marking) (l : Location) (name : String) (parameters : Tree) :
    m.readSignature q (l.moved q) name parameters =
      (m.readSignature p l name parameters).map (Outcome.moved q) := by
  refine bind_same fun names => ?_
  split
  · exact unresolved_moved hpq l name _
  · split
    · exact malformed_moved hpq l name _
    · exact map_map (Handler.ofName_moved q name m.suffix names (some l)) fun h => rfl

theorem analyze_moved (hpq : p.name = q.name) (m : Marking) (t : Tree) :
    m.analyze (some t) (some q) = (m.analyze (some t) (some p)).map (Outcome.moved q) := by
  refine bind_map (t.location_moved p q) fun l => ?_
  refine bind_same fun name => ?_
  refine bind_same fun marked => ?_
  split
  · rfl
  · split
    · exact unresolved_moved hpq l name _
    · split
      · exact unresolved_moved hpq l name _
      · split
        · exact malformed_moved hpq l name _
        · exact readSignature_moved hpq m l name _

end Marking

namespace Scan

variable {a b : Artifact}

theorem conflictDiagnostics_moved (config : Config) (h : a.id = b.id) (chosen : String) (places : List Place) :
    conflictDiagnostics config b chosen places =
      (conflictDiagnostics config a chosen places).map (List.map (Diagnostic.moved b.path)) := by
  induction places with
  | nil => rfl
  | cons p rest ih =>
    refine bind_same fun other => ?_
    split
    · exact ih
    · refine bind_map (p.node.location_moved a.path b.path) fun l => ?_
      rw [h]
      refine bind_map (Diagnostic.make_moved b.path _ _ _ _ (some l) _) fun d => ?_
      exact bind_map ih fun more => rfl

theorem globalDiagnostics_moved (config : Config) (h : a.id = b.id) (chosen : String) (first : Place) :
    globalDiagnostics config b chosen first =
      (globalDiagnostics config a chosen first).map (List.map (Diagnostic.moved b.path)) := by
  simp only [globalDiagnostics]
  split
  · rfl
  · refine bind_map (first.node.location_moved a.path b.path) fun l => ?_
    rw [h]
    exact bind_map (Diagnostic.make_moved b.path _ _ _ _ (some l) _) fun d => rfl

theorem syntaxDiagnostics_moved (q : Path) (artifact : String) (faults : Nat) :
    syntaxDiagnostics artifact faults = (syntaxDiagnostics artifact faults).map (List.map (Diagnostic.moved q)) := by
  rw [syntaxDiagnostics]
  split
  · rfl
  · exact map_map (Diagnostic.make_moved q _ _ _ _ none _) fun d => rfl

theorem outcomes_moved (config : Config) (h : a.id = b.id) (places : List Place) :
    outcomes config b places = (outcomes config a places).map (List.map (Outcome.moved b.path)) :=
  mapM_map fun p _ => Marking.analyze_moved h config.marking p.node

theorem record?_moved (q : Path) (o : Outcome) : (o.moved q).record? = o.record?.map (Handler.moved q) := by
  cases o <;> rfl

theorem problem?_moved (q : Path) (o : Outcome) : (o.moved q).problem? = o.problem?.map (Diagnostic.moved q) := by
  cases o <;> rfl

theorem make_context_moved (q : Path) (chosen artifact : String) (handlers : List Handler) :
    Context.make (some chosen) artifact (handlers.map (Handler.moved q)) =
      (Context.make (some chosen) artifact handlers).map (Context.moved q) := by
  simp only [Context.make]
  split
  · rfl
  · rfl

theorem make_extraction_moved (q : Path) (artifact : String) (context : Option Context) (ds : List Diagnostic) :
    Extraction.make artifact (context.map (Context.moved q)) (ds.map (Diagnostic.moved q)) =
      (Extraction.make artifact context ds).map (Extraction.moved q) := by
  cases context with
  | none =>
    simp only [Extraction.make, Option.map_none]
    split
    · rfl
    · rfl
  | some c =>
    simp only [Extraction.make, Option.map_some]
    split
    · rfl
    · split
      · rename_i hc
        rw [dif_pos (show c.artifact = artifact from hc)]
        rfl
      · rename_i hc
        rw [dif_neg (show c.artifact ≠ artifact from hc)]
        rfl

/-- **Scanning in another folder.** The tree of an artifact of the same name has the same extraction, in its own file. -/
theorem scan_moved (config : Config) (h : a.id = b.id) (tree : Tree) :
    scan config b tree = (scan config a tree).map (Extraction.moved b.path) := by
  refine bind_same fun found => ?_
  rw [← h]
  cases found with
  | nil => exact make_extraction_moved b.path a.id none []
  | cons first others =>
    refine bind_map (syntaxDiagnostics_moved b.path a.id tree.countFaults) fun faults => ?_
    refine bind_same fun chosen => ?_
    refine bind_map (conflictDiagnostics_moved config h chosen others) fun conflicts => ?_
    refine bind_map (globalDiagnostics_moved config h chosen first) fun globals => ?_
    refine bind_map (outcomes_moved config h _) fun results => ?_
    have hrecords : (results.map (Outcome.moved b.path)).filterMap Outcome.record? =
        (results.filterMap Outcome.record?).map (Handler.moved b.path) := by
      rw [List.filterMap_map, List.map_filterMap]
      exact List.filterMap_congr fun o _ => record?_moved b.path o
    have hproblems : (results.map (Outcome.moved b.path)).filterMap Outcome.problem? =
        (results.filterMap Outcome.problem?).map (Diagnostic.moved b.path) := by
      rw [List.filterMap_map, List.map_filterMap]
      exact List.filterMap_congr fun o _ => problem?_moved b.path o
    rw [hrecords, hproblems, ← List.map_append, ← List.map_append, ← List.map_append]
    refine bind_map (make_context_moved b.path chosen a.id _) fun c => ?_
    exact make_extraction_moved b.path a.id (some c) _

end Scan

/-! ## Extraction in another folder -/

section Extract

variable {parse : String → Option Tree} {config : Config} {a b : Artifact} {e : Extraction}

/-- the reader that looks at the text alone -/
def SourceReader.ofText (parse : String → Option Tree) : SourceReader := fun a => parse a.content

/-- **Moved artifacts.** Artifacts of one name and one text have the same extraction, each in its own file. -/
theorem extract_moved (hid : a.id = b.id) (htext : a.content = b.content)
    (h : extract (.ofText parse) config a = .ok e) : extract (.ofText parse) config b = .ok (e.moved b.path) := by
  cases hp : parse a.content with
  | none =>
    rw [extract_eq_unreadable (a := a) hp] at h
    cases h
  | some tree =>
    rw [extract_eq_scan (a := a) hp] at h
    have hb : SourceReader.ofText parse b = some tree := by
      rw [← hp, htext]
      rfl
    rw [extract_eq_scan hb, Scan.scan_moved config hid tree, h]
    rfl

/-- every location of an extraction is in the file of its artifact -/
theorem file_of_extract (h : extract (.ofText parse) config a = .ok e) : ∀ l ∈ e.locations, l.file = a.path := by
  have hself := extract_moved rfl rfl h
  rw [h] at hself
  exact Extraction.moved_eq_iff.1 (Except.ok.inj hself).symm

/-- an extraction is that of an artifact in another file exactly when it has no location -/
theorem moved_eq_of_extract_iff (h : extract (.ofText parse) config a = .ok e) (hne : a.path ≠ b.path) :
    e = e.moved b.path ↔ e.locations = [] := by
  rw [eq_comm, Extraction.moved_eq_iff]
  refine ⟨fun hl => List.eq_nil_iff_forall_not_mem.2 fun l hm => hne ?_, fun hl l hm => ?_⟩
  · rw [← file_of_extract h l hm, hl l hm]
  · rw [hl] at hm
    cases hm

end Extract

end SignalWiring
