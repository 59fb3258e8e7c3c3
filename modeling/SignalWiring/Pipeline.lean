/-
The pipeline: from artifacts to fragments, run after run.

A run extracts every artifact, stores the contexts in the registry, tells which registered artifacts are stale, numbers
the events of the whole registry and renders one fragment for each live context, all in input order. A failed extraction
becomes a diagnostic and leaves the other artifacts alone. Only an artifact name or an event name that occurs twice halts
a run; the latter is seen when the registry has been changed already.

Registry and cache live on between runs in a `Session`; a reset empties both.
-/
import SignalWiring.Assignment
import SignalWiring.Cache
import SignalWiring.Emission
import SignalWiring.Generation
import SignalWiring.Given
import SignalWiring.Registry

namespace SignalWiring

/-- what does not change between runs -/
structure Pipeline where
  config : Config
  extractor : Extractor
  /-- extractions go through the session's cache -/
  cached : Bool := true

/-- what lives on between runs -/
structure Session where
  registry : Registry
  cache : Cache

/-- nothing has been run -/
def Session.fresh : Session := ⟨.empty, .empty⟩

instance : Inhabited Session := ⟨.fresh⟩

/-- the state after a step, what came of it, and what was reported on the way -/
structure Step (α : Type) where
  session : Session
  outcome : Except Fault α
  records : List Log.Record := []

namespace Pipeline

def reading (read : SourceReader) (config : Config) : Pipeline := ⟨config, Extractor.reading read config, true⟩

/-! ## Extraction -/

def unreadable (artifact reason : String) : Except Fault Diagnostic :=
  Diagnostic.make .unreadableArtifact .error reason artifact none none

def unreadableRecord (artifact reason : String) : Log.Record :=
  { level := .warning, event := "artifact_unreadable", fields := [("artifact", .text artifact), ("reason", .text reason)] }

def onlyDiagnostic (artifact : String) (d : Except Fault Diagnostic) : Except Fault Extraction :=
  d.bind fun x => Extraction.make artifact none [x]

/-- make a diagnostic of a fault of the generator or of a value; all other faults stay what they are -/
def absorb (a : Artifact) (s : Scanned) : Scanned :=
  match s.outcome with
  | .ok _ => s
  | .error (.unreadable _ reason) =>
    ⟨onlyDiagnostic a.id (unreadable a.id reason), s.records ++ [unreadableRecord a.id reason]⟩
  | .error fault =>
    if fault.isOwn || fault.isValue then
      let record : Log.Record :=
        { level := .error, event := "extraction_failed",
          fields := [("artifact", .text a.id), ("error", .text fault.message)] }
      ⟨onlyDiagnostic a.id (Diagnostic.make .extractionFailed .error fault.message a.id none none), s.records ++ [record]⟩
    else s

def extractOne (p : Pipeline) (cache : Cache) (a : Artifact) : Cache × Scanned :=
  if p.cached then
    let (after, scanned) := cache.extract p.extractor a
    (after, absorb a scanned)
  else (cache, absorb a (p.extractor a))

/-- extract artifacts in order, up to the first fault that stays one -/
def extractAll (p : Pipeline) : Cache → List Artifact → Cache × Except Fault (List Extraction) × List Log.Record
  | cache, [] => (cache, .ok [], [])
  | cache, a :: rest =>
    let (cache, scanned) := p.extractOne cache a
    match scanned.outcome with
    | .error fault => (cache, .error fault, scanned.records)
    | .ok e =>
      let (cache, others, records) := p.extractAll cache rest
      (cache, others.map (e :: ·), scanned.records ++ records)

/-! ## Runs -/

def staleDiagnostic (artifact : String) : Except Fault Diagnostic :=
  Diagnostic.make .staleRegistryEntry .info "artifact no longer in input, its events are still emitted" artifact none none

def staleRecord (artifact : String) : Log.Record :=
  { level := .info, event := "stale_registry_entry", fields := [("artifact", .text artifact)] }

/-- the record of a run that came to its end -/
def finishedRecord (artifacts : Nat) (g : Generation) : Log.Record :=
  { level := .info, event := "generation_finished",
    fields := [("artifacts", .count artifacts), ("fragments", .count g.fragments.length),
               ("events", .count g.table.discoveredNames.length), ("diagnostics", .count g.diagnostics.length)] }

/-- number the events of the registry and render the live contexts -/
def emit (p : Pipeline) (registry : Registry) (live : List Context) (diagnostics : List Diagnostic) :
    Except Fault Generation := do
  let table ← Assignment.assign registry.snapshot p.config.order BuiltinEvent.all
  let renderer : Emission.Renderer := { config := p.config }
  let fragments ← live.mapM fun c => renderer.renderFragment c table
  return ⟨fragments, diagnostics, table⟩

/-- the run after extraction -/
def complete (p : Pipeline) (s : Session) (artifacts : Nat) (extractions : List Extraction)
    (records : List Log.Record) : Step Generation :=
  let live := extractions.filterMap Extraction.context
  let registry := s.registry.storeAll live
  let stale := registry.stale (live.map Context.artifact)
  let after : Session := { s with registry := registry }
  let records := records ++ stale.map staleRecord
  match stale.mapM staleDiagnostic with
  | .error fault => ⟨after, .error fault, records⟩
  | .ok ds =>
    match p.emit registry live (extractions.flatMap Extraction.diagnostics ++ ds) with
    | .error fault => ⟨after, .error fault, records⟩
    | .ok g => ⟨after, .ok g, records ++ [finishedRecord artifacts g]⟩

/-- run on artifacts of which no two may have the same name -/
def run (p : Pipeline) (s : Session) (artifacts : List Artifact) : Step Generation :=
  match firstRepeated [] (artifacts.map Artifact.id) with
  | some id => ⟨s, .error (.duplicateArtifact id), []⟩
  | none =>
    match p.extractAll s.cache artifacts with
    | (cache, .error fault, records) => ⟨{ s with cache := cache }, .error fault, records⟩
    | (cache, .ok extractions, records) =>
      p.complete { s with cache := cache } artifacts.length extractions records

def runOf (p : Pipeline) (s : Session) (artifacts : Option (List (Option Artifact))) : Step Generation :=
  match artifacts with
  | none => ⟨s, .error (.absent "artifacts must not be None"), []⟩
  | some given =>
    match untilAbsent given with
    | (found, false) => p.run s found
    | (found, true) =>
      match firstRepeated [] (found.map Artifact.id) with
      | some id => ⟨s, .error (.duplicateArtifact id), []⟩
      | none => ⟨s, .error .memberless, []⟩

/-! ## Runs on files -/

/-- what was read: artifacts, diagnostics for what is unreadable, and records of the latter -/
structure Readings where
  artifacts : List Artifact := []
  diagnostics : List Diagnostic := []
  records : List Log.Record := []
  /-- the fault that ended the reading -/
  fault : Option Fault := none

/-- read files in order, up to the first fault that is no mere unreadable artifact -/
def readAll (files : FileTree) : List Path → Readings
  | [] => {}
  | path :: rest =>
    match Artifact.read files path with
    | .ok a =>
      let r := readAll files rest
      { r with artifacts := a :: r.artifacts }
    | .error (.unreadable p reason) =>
      let record := unreadableRecord p.name reason
      match unreadable p.name reason with
      | .error fault => { records := [record], fault := some fault }
      | .ok d =>
        let r := readAll files rest
        { r with diagnostics := d :: r.diagnostics, records := record :: r.records }
    | .error fault => { fault := some fault }

/-- run on files; the diagnostics of the unreadable ones come first -/
def runPaths (p : Pipeline) (s : Session) (files : FileTree) (paths : List Path) : Step Generation :=
  let r := readAll files paths
  match r.fault with
  | some fault => ⟨s, .error fault, r.records⟩
  | none =>
    let step := p.run s r.artifacts
    { step with
      outcome := step.outcome.map fun g => { g with diagnostics := r.diagnostics ++ g.diagnostics }
      records := r.records ++ step.records }

/-! ## Between runs -/

/-- forget every context and every extraction -/
def reset (p : Pipeline) (s : Session) : Session :=
  ⟨Registry.empty, if p.cached then s.cache.clear else s.cache⟩

end Pipeline

end SignalWiring
