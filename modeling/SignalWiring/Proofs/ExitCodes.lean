/-
What the exit code of the command tells, and what has been written then.

Only two things make an error among the diagnostics of a run: a source that cannot be read, and one from which nothing
can be extracted. Whatever else is wrong with a source is a warning. So the exit code depends on the configuration, on
the source folder, and on what the sources are by themselves: their names, their events, and whether each of them comes
to an extraction.

- `Scan.severity_of_scan`: a scan reports no error.
- `Pipeline.yield_fresh`: what a first run has of an artifact, and when there is an error in it.
- `Pipeline.readAll_readable`, `Pipeline.runPaths_verdict`: a first run on files, and the three ways in which it ends.
- `Cli.misused_of_prepare`, `Cli.Prepared.misused_iff`: which requests are misuse.
- `Cli.exits_of_prepared`: what a request with a configuration and sources comes to.
- `Cli.run_exits`: each exit code with its cause, and the files after it.
- `Cli.misuse_below_file`: misuse of which no check of the configuration speaks.
-/
import SignalWiring.Proofs.Acceptance
import SignalWiring.Proofs.Discovery
import SignalWiring.Proofs.Incremental
import SignalWiring.Proofs.Outputs
import SignalWiring.Proofs.UnreadableFiles

namespace SignalWiring

open FileTree

/-! ## Severities -/

theorem Diagnostic.severity_of_make {kind : DiagnosticKind} {severity : Severity} {message artifact : String}
    {location : Option Location} {subject : Option String} {d : Diagnostic}
    (h : make kind severity message artifact location subject = .ok d) : d.severity = severity := by
  rw [make] at h
  split_ifs at h
  cases h
  rfl

namespace Marking

variable {m : Marking} {t : Tree} {path : Path} {location : Location} {name reason : String} {o : Outcome}

/-- the outcome is no problem but a warning -/
def Mild : Outcome → Prop
  | .problem d => d.severity = .warning
  | _ => True

theorem mild_unresolved (h : unresolved path location name reason = .ok o) : Mild o := by
  obtain ⟨d, hd, rfl⟩ := map_eq_ok h
  exact Diagnostic.severity_of_make hd

theorem mild_malformed (h : malformed path location name reason = .ok o) : Mild o := by
  obtain ⟨d, hd, rfl⟩ := map_eq_ok h
  exact Diagnostic.severity_of_make hd

/-- **Delegates.** What is wrong with a delegate is a warning. -/
theorem mild_analyze (h : m.analyze (some t) (some path) = .ok o) : Mild o := by
  obtain ⟨location, -, h⟩ := bind_eq_ok h
  obtain ⟨name, -, h⟩ := bind_eq_ok h
  obtain ⟨marked, -, h⟩ := bind_eq_ok h
  split at h
  · cases h
    exact trivial
  · split at h
    · exact mild_unresolved h
    · split at h
      · exact mild_unresolved h
      · split at h
        · exact mild_malformed h
        · obtain ⟨names, -, h⟩ := bind_eq_ok h
          split at h
          · exact mild_unresolved h
          · split at h
            · exact mild_malformed h
            · obtain ⟨handler, -, rfl⟩ := map_eq_ok h
              exact trivial

end Marking

namespace Scan

variable {config : Config} {a : Artifact} {tree : Tree} {e : Extraction} {d : Diagnostic}

theorem severity_of_parsing {artifact : String} {faults : Nat} {ds : List Diagnostic}
    (h : syntaxDiagnostics artifact faults = .ok ds) (hd : d ∈ ds) : d.severity = .warning := by
  rw [syntaxDiagnostics] at h
  split at h
  · cases h
    cases hd
  · obtain ⟨x, hx, rfl⟩ := map_eq_ok h
    rw [List.mem_singleton.1 hd]
    exact Diagnostic.severity_of_make hx

theorem severity_of_conflict {chosen : String} {places : List Place} {ds : List Diagnostic}
    (h : conflictDiagnostics config a chosen places = .ok ds) (hd : d ∈ ds) : d.severity = .warning := by
  induction places generalizing ds with
  | nil =>
    cases h
    cases hd
  | cons p rest ih =>
    obtain ⟨other, -, h⟩ := bind_eq_ok h
    split at h
    · exact ih h hd
    · obtain ⟨location, -, h⟩ := bind_eq_ok h
      obtain ⟨x, hx, h⟩ := bind_eq_ok h
      obtain ⟨more, hmore, h⟩ := bind_eq_ok h
      cases h
      rcases List.mem_cons.1 hd with rfl | hd
      · exact Diagnostic.severity_of_make hx
      · exact ih hmore hd

theorem severity_of_global {chosen : String} {first : Place} {ds : List Diagnostic}
    (h : globalDiagnostics config a chosen first = .ok ds) (hd : d ∈ ds) : d.severity = .info := by
  rw [globalDiagnostics] at h
  split at h
  · cases h
    cases hd
  · obtain ⟨location, -, h⟩ := bind_eq_ok h
    obtain ⟨x, hx, h⟩ := bind_eq_ok h
    cases h
    rw [List.mem_singleton.1 hd]
    exact Diagnostic.severity_of_make hx

theorem severity_of_outcomes {places : List Place} {results : List Outcome}
    (h : outcomes config a places = .ok results) (hd : d ∈ results.filterMap Outcome.problem?) :
    d.severity = .warning := by
  obtain ⟨o, ho, hproblem⟩ := List.mem_filterMap.1 hd
  obtain ⟨p, -, hp⟩ := exists_of_forall₂ (mapM_eq_ok h) ho
  have hmild := Marking.mild_analyze hp
  cases o with
  | problem x =>
    cases hproblem
    exact hmild
  | ignored | record => cases hproblem

/-- **Scans.** A scan reports no error. -/
theorem severity_of_scan (h : scan config a tree = .ok e) (hd : d ∈ e.diagnostics) : d.severity ≠ .error := by
  obtain ⟨found, -, h⟩ := bind_eq_ok h
  cases found with
  | nil =>
    obtain ⟨-, -, hds⟩ := (make_extraction_meets a.id none []).of_ok h
    rw [hds] at hd
    cases hd
  | cons first others =>
    obtain ⟨faults, hfaults, h⟩ := bind_eq_ok h
    obtain ⟨chosen, -, h⟩ := bind_eq_ok h
    obtain ⟨conflicts, hconflicts, h⟩ := bind_eq_ok h
    obtain ⟨globals, hglobals, h⟩ := bind_eq_ok h
    obtain ⟨results, hresults, h⟩ := bind_eq_ok h
    obtain ⟨c, -, h⟩ := bind_eq_ok h
    obtain ⟨-, -, hds⟩ := (make_extraction_meets a.id (some c) _).of_ok h
    have hsome : d.severity = .warning ∨ d.severity = .info := by
      rw [hds, List.mem_append, List.mem_append, List.mem_append] at hd
      rcases hd with ((hd | hd) | hd) | hd
      · exact Or.inl (severity_of_parsing hfaults hd)
      · exact Or.inl (severity_of_conflict hconflicts hd)
      · exact Or.inr (severity_of_global hglobals hd)
      · exact Or.inl (severity_of_outcomes hresults hd)
    rcases hsome with hsome | hsome <;>
      · rw [hsome]
        decide

end Scan

theorem severity_of_extract {read : SourceReader} {config : Config} {a : Artifact} {e : Extraction} {d : Diagnostic}
    (h : extract read config a = .ok e) (hd : d ∈ e.diagnostics) : d.severity ≠ .error := by
  cases hr : read a with
  | none =>
    rw [extract_eq_unreadable hr] at h
    cases h
  | some tree =>
    rw [extract_eq_scan hr] at h
    exact Scan.severity_of_scan h hd

def HasError (ds : List Diagnostic) : Prop := ∃ d ∈ ds, d.severity = .error

theorem hasError_append {ds ds' : List Diagnostic} : HasError (ds ++ ds') ↔ HasError ds ∨ HasError ds' := by
  simp only [HasError, List.mem_append, or_and_right, exists_or]

theorem Generation.passed_iff {g : Generation} : g.passed = true ↔ ¬HasError g.diagnostics := by
  simp [passed, errors, count, HasError, List.filter_eq_nil_iff]

namespace Pipeline

open Artifact (Unreadable Refused)
open Assignment (eventNames)

/-! ## First runs on artifacts -/

section Fresh

variable {read : SourceReader} {config : Config} {a : Artifact} {e : Extraction} {artifacts : List Artifact}
  {es : List Extraction}

/-- **First runs.** What a first run has of an artifact is the context that the artifact has by itself. There is an error
in it exactly when the extraction of the artifact fails. -/
theorem yield_fresh (h : (reading read config).yield .fresh a = .ok e) :
    e.context = contextOf read config a ∧
      (HasError e.diagnostics ↔ ∃ fault, extract read config a = .error fault) := by
  have hnone : Session.fresh.cache.lookup a = none := rfl
  have hanswer : (Session.fresh.cache.extract (.reading read config) a).2.outcome = extract read config a := by
    rw [(Cache.extract_of_lookup_none _ hnone).1, reading_outcome]
  rw [yield, answer_reading] at h
  cases hextract : extract read config a with
  | ok found =>
    rw [hextract] at hanswer
    rw [absorb_of_ok hanswer, hanswer] at h
    cases h
    refine ⟨?_, iff_of_false ?_ ?_⟩
    · rw [contextOf, hextract]
      rfl
    · rintro ⟨d, hd, herror⟩
      exact severity_of_extract hextract hd herror
    · rintro ⟨fault, hfault⟩
      cases hfault
  | error fault =>
    obtain ⟨left, d, hleft, -, hcontext, hds, htells⟩ := exists_absorb (hanswer.trans hextract) (extract_fault hextract)
    obtain rfl := Except.ok.inj (h.symm.trans hleft)
    refine ⟨?_, iff_of_true ⟨d, ?_, htells.severity⟩ ⟨fault, rfl⟩⟩
    · rw [hcontext, contextOf, hextract]
      rfl
    · rw [hds]
      exact List.mem_singleton_self d

/-- So it is with all artifacts. -/
theorem extracts_fresh (h : (reading read config).Extracts .fresh artifacts es) :
    es.filterMap Extraction.context = artifacts.filterMap (contextOf read config) ∧
      (HasError (es.flatMap Extraction.diagnostics) ↔
        ∃ a ∈ artifacts, ∃ fault, extract read config a = .error fault) := by
  induction h with
  | nil => exact ⟨rfl, iff_of_false (fun ⟨_, hd, _⟩ => nomatch hd) fun ⟨_, ha, _⟩ => nomatch ha⟩
  | cons hyield _ ih =>
    obtain ⟨hcontext, herror⟩ := yield_fresh hyield
    obtain ⟨hcontexts, herrors⟩ := ih
    constructor
    · rw [List.filterMap_cons, List.filterMap_cons, hcontext, hcontexts]
    · rw [List.flatMap_cons, hasError_append, herror, herrors]
      simp only [List.mem_cons, or_and_right, exists_or, exists_eq_left]

end Fresh

/-! ## First runs on files -/

/-- the artifacts that files are read as -/
def readable (files : FileTree) (paths : List Path) : List Artifact :=
  paths.filterMap fun p => (Artifact.read files p).toOption

/-- two of the files that can be read have the same name -/
def Namesakes (files : FileTree) (paths : List Path) : Prop := ¬((readable files paths).map Artifact.id).Nodup

/-- the events that the files declare by themselves -/
def declared (read : SourceReader) (config : Config) (files : FileTree) (paths : List Path) : List String :=
  eventNames ((readable files paths).filterMap (contextOf read config))

/-- an event is declared twice, or is built in -/
def Colliding (read : SourceReader) (config : Config) (files : FileTree) (paths : List Path) : Prop :=
  ¬(declared read config files paths).Nodup ∨
    ∃ n ∈ declared read config files paths, n ∈ BuiltinEvent.all.map BuiltinEvent.key

/-- a file cannot be read, or nothing can be extracted from it -/
def Deficient (read : SourceReader) (config : Config) (files : FileTree) (paths : List Path) : Prop :=
  (∃ p ∈ paths, ∃ reason, Unreadable files p reason) ∨
    ∃ a ∈ readable files paths, ∃ fault, extract read config a = .error fault

/-- how a first run on files ends -/
inductive Verdict (read : SourceReader) (config : Config) (files : FileTree) (paths : List Path) :
    Except Fault Generation → Prop where
  | namesakes (id : String) (same : Namesakes files paths) :
      Verdict read config files paths (.error (.duplicateArtifact id))
  | collision (event first second : String) (distinct : ¬Namesakes files paths)
      (colliding : Colliding read config files paths) :
      Verdict read config files paths (.error (.duplicateEvent event first second))
  | returned (g : Generation) (distinct : ¬Namesakes files paths) (free : ¬Colliding read config files paths)
      (passed : g.passed = true ↔ ¬Deficient read config files paths) : Verdict read config files paths (.ok g)

section Files

variable {es : List (String × FileTree)} {paths : List Path}

/-- **Reading.** Of files of which none is refused, those that can be read become artifacts, and there is an error
exactly when one of them cannot be read. -/
theorem readAll_readable (h : ∀ p ∈ paths, ∀ cause, ¬Refused (.folder es) p cause) :
    (readAll (.folder es) paths).artifacts = readable (.folder es) paths ∧
      (HasError (readAll (.folder es) paths).diagnostics ↔
        ∃ p ∈ paths, ∃ reason, Unreadable (.folder es) p reason) := by
  induction paths with
  | nil => exact ⟨rfl, iff_of_false (fun ⟨_, hd, _⟩ => nomatch hd) fun ⟨_, hp, _⟩ => nomatch hp⟩
  | cons p rest ih =>
    obtain ⟨hartifacts, herrors⟩ := ih fun q hq => h q (List.mem_cons_of_mem _ hq)
    simp only [List.mem_cons, or_and_right, exists_or, exists_eq_left]
    rcases Artifact.read_cases es p with ⟨a, hread, hreads⟩ | ⟨reason, hread, hunreadable⟩ | ⟨cause, -, hrefused⟩
    · have hnot : ¬∃ reason, Unreadable (.folder es) p reason := fun ⟨reason, hreason⟩ => hreason.not_reads hreads
      simp only [readAll, readable, hread, List.filterMap_cons, Except.toOption, hnot, false_or]
      exact ⟨congrArg (a :: ·) hartifacts, herrors⟩
    · obtain ⟨d, hd, hnotice⟩ := exists_notice hunreadable
      simp only [readAll, readable, hread, hd, List.filterMap_cons, Except.toOption]
      exact ⟨hartifacts, iff_of_true ⟨d, List.mem_cons_self, hnotice.severity⟩ (Or.inl ⟨reason, hunreadable⟩)⟩
    · exact absurd hrefused (h p List.mem_cons_self cause)

/-- **First runs on files.** When none of the files is refused, a first run on them ends in one of three ways, and it is
plain from the files which of them it is. -/
theorem runPaths_verdict (read : SourceReader) (config : Config)
    (h : ∀ p ∈ paths, ∀ cause, ¬Refused (.folder es) p cause) :
    Verdict read config (.folder es) paths ((reading read config).runPaths .fresh (.folder es) paths).outcome := by
  obtain ⟨hfault, -⟩ := readAll_sifted h
  obtain ⟨hartifacts, hunreadable⟩ := readAll_readable h
  have hrun : ((reading read config).runPaths .fresh (.folder es) paths).outcome =
      ((reading read config).run .fresh (readable (.folder es) paths)).outcome.map fun g =>
        { g with diagnostics := (readAll (.folder es) paths).diagnostics ++ g.diagnostics } := by
    simp only [runPaths, hfault, hartifacts]
  rw [hrun]
  by_cases hids : ((readable (.folder es) paths).map Artifact.id).Nodup
  · obtain ⟨extractions, hextracts, hyields, hregistry, hends⟩ :=
      run_cases (from_fresh : From read config (fun _ => True) .fresh) (fun _ _ => trivial) hids
    obtain ⟨hcontexts, hfailing⟩ := extracts_fresh hextracts
    -- nothing was registered before, so what is numbered are the contexts of this run
    have hsnapshot : ((reading read config).run .fresh (readable (.folder es) paths)).session.registry.snapshot =
        (readable (.folder es) paths).filterMap (contextOf read config) := by
      rw [hregistry, Registry.snapshot_storeAll (nodup_live hyields hids), ← hcontexts]
      exact List.filter_eq_self.2 fun c _ => decide_eq_true List.not_mem_nil
    rw [hsnapshot] at hends
    rcases hends with ⟨hnodup, hnew, g, hg, hmade⟩ | ⟨event, first, second, hclash, herror⟩
    · rw [hg]
      have hfree : ¬Colliding read config (.folder es) paths := by
        rintro (hrepeated | ⟨n, hn, hbuiltin⟩)
        · exact hrepeated hnodup
        · exact hnew n hn hbuiltin
      refine .returned _ (not_not_intro hids) hfree ?_
      obtain ⟨notices, hds, hnotices⟩ := hmade.diagnostics
      obtain rfl : notices = [] := List.forall₂_nil_left_iff.1 hnotices
      rw [Generation.passed_iff, hasError_append, hunreadable, hds, List.append_nil, hfailing, Deficient]
    · rw [herror]
      exact .collision event first second (not_not_intro hids) hclash.repeated_or_builtin
  · obtain ⟨id, hhalted⟩ := run_of_repeated read config .fresh hids
    rw [hhalted]
    exact .namesakes id hids

end Files

end Pipeline

/-! ## Discovered sources -/

namespace Discovery

variable {files : FileTree} {root : Path} {exclude : List String} {marker : String} {paths : List Path}

/-- sources are discovered in a tree with a folder at the top -/
theorem exists_top_of_discover (h : discover files root exclude marker = .ok paths) : ∃ es, files = .folder es := by
  obtain ⟨es, hroot⟩ := exists_folder_of_discover h
  obtain ⟨q, -, hq⟩ := get_eq_ok.1 hroot
  cases files with
  | folder top => exact ⟨top, rfl⟩
  | file bytes readable =>
    cases q with
    | nil => cases hq
    | cons n rest => cases hq

/-- and reading none of them is refused -/
theorem not_refused_of_discover (hlawful : files.Lawful) (h : discover files root exclude marker = .ok paths) :
    ∀ p ∈ paths, ∀ cause, ¬Artifact.Refused files p cause := by
  intro p hp cause hrefused
  obtain ⟨bytes, readable, hget⟩ := (found_of_discover hlawful h p hp).file
  have hfound := hrefused.found
  rw [FileTree.read, hget] at hfound
  cases readable with
  | true => cases hfound
  | false =>
    cases hfound
    cases hrefused

end Discovery

namespace Cli

open Pipeline (Namesakes Colliding Deficient Verdict)

/-! ## Misuse -/

/-- the configuration and the sources of a request -/
def Prepared (r : Request) (files : FileTree) (config : Config) (paths : List Path) : Prop :=
  prepare files (Path.ofString r.source) (r.config.map Path.ofString) = .ok (config, paths)

/-- the ways in which a request is misuse -/
inductive Misused (r : Request) (files : FileTree) : Prop where
  /-- its configuration is refused with a fault of the configuration -/
  | refused (key reason : String)
      (fault : findConfig files (Path.ofString r.source) (r.config.map Path.ofString) = .error (.setting key reason))
  /-- its configuration is asked for below a file -/
  | below (named : String) (given : r.config = some named)
      (found : files.read (Path.ofString named) = .error .notFolder)
  /-- its source root is no folder -/
  | root (noFolder : files.isFolder (Path.ofString r.source) = false)
  /-- two of its sources that can be read have the same name -/
  | namesakes (config : Config) (paths : List Path) (prepared : Prepared r files config paths)
      (same : Namesakes files paths)

section Misuse

variable {r : Request} {files : FileTree} {config config' : Config} {paths paths' : List Path} {fault : Fault}

theorem prepared_iff : Prepared r files config paths ↔
    findConfig files (Path.ofString r.source) (r.config.map Path.ofString) = .ok config ∧
      Discovery.discover files (Path.ofString r.source) Discovery.standardExcludes config.generated = .ok paths := by
  constructor
  · intro h
    obtain ⟨found, hconfig, h⟩ := bind_eq_ok h
    obtain ⟨sources, hdiscover, h⟩ := bind_eq_ok h
    cases h
    exact ⟨hconfig, hdiscover⟩
  · rintro ⟨hconfig, hdiscover⟩
    rw [Prepared, prepare, hconfig]
    change (Discovery.discover files _ _ config.generated >>= _) = _
    rw [hdiscover]
    rfl

theorem Prepared.unique (h : Prepared r files config paths) (h' : Prepared r files config' paths') :
    config = config' ∧ paths = paths' := Prod.mk.inj (Except.ok.inj (h.symm.trans h'))

/-- A request that is prepared is misuse when two of its sources that can be read have the same name. -/
theorem Prepared.misused_iff (h : Prepared r files config paths) : Misused r files ↔ Namesakes files paths := by
  obtain ⟨hconfig, hdiscover⟩ := prepared_iff.1 h
  constructor
  · intro hmisused
    cases hmisused with
    | refused key reason fault =>
      rw [hconfig] at fault
      cases fault
    | below named given found =>
      rw [given, Option.map_some, findConfig, ConfigFile.load, found] at hconfig
      cases hconfig
    | root noFolder =>
      obtain ⟨es, hfolder⟩ := Discovery.exists_folder_of_discover hdiscover
      rw [isFolder_iff.2 ⟨es, hfolder⟩] at noFolder
      cases noFolder
    | namesakes config' paths' prepared same =>
      obtain ⟨-, rfl⟩ := h.unique prepared
      exact same
  · exact .namesakes config paths h

/-- a configuration that is refused as misuse has a fault of the configuration, or is asked for below a file -/
theorem misused_of_findConfig (hmisuse : isMisuse fault = true)
    (h : findConfig files (Path.ofString r.source) (r.config.map Path.ofString) = .error fault) : Misused r files := by
  obtain ⟨path, hpath, hload⟩ : ∃ path, r.Configures files path ∧ ConfigFile.load files path = .error fault := by
    cases hnamed : r.config with
    | some named =>
      rw [hnamed] at h
      exact ⟨_, Or.inl ⟨named, hnamed, rfl⟩, h⟩
    | none =>
      rw [hnamed, Option.map_none, findConfig] at h
      split at h
      · rename_i hfile
        exact ⟨_, Or.inr ⟨hnamed, rfl, hfile⟩, h⟩
      · cases h
  rw [ConfigFile.load] at hload
  split at hload
  · cases hload
    exact .refused _ _ h
  · rename_i cause hmissing hread
    cases hload
    cases cause with
    | notFolder =>
      rcases hpath with ⟨named, hnamed, rfl⟩ | ⟨-, rfl, hfile⟩
      · exact .below named hnamed hread
      · obtain ⟨bytes, readable, hget⟩ := isFile_iff.1 hfile
        rw [FileTree.read, hget] at hread
        cases readable <;> cases hread
    | _ => cases hmisuse
  · rename_i bytes hread
    have hpromised : Config.Promised (.error fault) :=
      hload ▸ ConfigFile.promised_iff.2 ((ConfigFile.isMisuse_iff hload).1 hmisuse)
    cases hpromised with
    | refused key reason raised => exact .refused key reason h

/-- **Misuse.** A request that cannot be prepared, and is answered nevertheless, is misuse. -/
theorem misused_of_prepare (hmisuse : isMisuse fault = true)
    (h : prepare files (Path.ofString r.source) (r.config.map Path.ofString) = .error fault) : Misused r files := by
  cases hconfig : findConfig files (Path.ofString r.source) (r.config.map Path.ofString) with
  | error cause =>
    rw [prepare, hconfig] at h
    cases h
    exact misused_of_findConfig hmisuse hconfig
  | ok config =>
    cases hdiscover : Discovery.discover files (Path.ofString r.source) Discovery.standardExcludes config.generated with
    | ok paths =>
      have hprepared : Prepared r files config paths := prepared_iff.2 ⟨hconfig, hdiscover⟩
      rw [hprepared] at h
      cases h
    | error cause =>
      refine .root (Bool.eq_false_iff.2 fun hfolder => ?_)
      obtain ⟨es, hroot⟩ := isFolder_iff.1 hfolder
      rw [Discovery.discover, hroot] at hdiscover
      cases hdiscover

end Misuse

/-! ## Exit codes -/

/-- what the exit code `code` of a request tells that has made the files `after` of `files` -/
structure Exits (read : SourceReader) (r : Request) (files after : FileTree) (code : ℕ) : Prop where
  misused : code = exitMisused ↔ Misused r files
  failed : code = exitFailed ↔ ¬Misused r files ∧ ∃ config paths, Prepared r files config paths ∧
    (Colliding read config files paths ∨ Deficient read config files paths)
  passed : code = exitPassed ↔ ¬Misused r files ∧ ∃ config paths, Prepared r files config paths ∧
    ¬Colliding read config files paths ∧ ¬Deficient read config files paths
  /-- misuse and a collision of events leave the files as they were -/
  untouched : (Misused r files ∨ ∃ config paths, Prepared r files config paths ∧ Colliding read config files paths) →
    after = files
  /-- else every fragment of the run is in its output file, and no other file is changed, whatever the exit code is -/
  written : ¬Misused r files → (∀ config paths, Prepared r files config paths → ¬Colliding read config files paths) →
    ∃ config paths g, Prepared r files config paths ∧
      ((Pipeline.reading read config).runPaths .fresh files paths).outcome = .ok g ∧
      after = (Writer.write r.outFolder files g.fragments).files ∧
      Writer.Confined r.outFolder files g.fragments ∧ Writer.Settled r.outFolder g.fragments after

section Exits

variable {read : SourceReader} {r : Request} {setup : Log.Setup} {moment : String} {files : FileTree} {config : Config}
  {paths : List Path} {answer : Answer} {g : Generation}

theorem exits_of_misused (h : Misused r files) : Exits read r files files exitMisused where
  misused := iff_of_true rfl h
  failed := iff_of_false (by decide) fun ⟨hnot, _⟩ => hnot h
  passed := iff_of_false (by decide) fun ⟨hnot, _⟩ => hnot h
  untouched _ := rfl
  written hnot := absurd h hnot

theorem exits_of_collision (hprepared : Prepared r files config paths) (hdistinct : ¬Namesakes files paths)
    (h : Colliding read config files paths) : Exits read r files files exitFailed := by
  have hproper : ¬Misused r files := mt hprepared.misused_iff.1 hdistinct
  refine ⟨iff_of_false (by decide) hproper, iff_of_true rfl ⟨hproper, config, paths, hprepared, Or.inl h⟩,
    iff_of_false (by decide) ?_, fun _ => rfl, fun _ hfree => absurd h (hfree config paths hprepared)⟩
  rintro ⟨-, config', paths', hprepared', hfree, -⟩
  obtain ⟨rfl, rfl⟩ := hprepared.unique hprepared'
  exact hfree h

/-- a run on files without a slash in the marker is written into the output folder -/
theorem written_of_runPaths {report : WriteReport} (hmarker : '/' ∉ config.generated.toList)
    (hg : ((Pipeline.reading read config).runPaths .fresh files paths).outcome = .ok g)
    (hreport : (Writer.write r.outFolder files g.fragments).outcome = .ok report) :
    Writer.Confined r.outFolder files g.fragments ∧
      Writer.Settled r.outFolder g.fragments (Writer.write r.outFolder files g.fragments).files := by
  have hbare : ∀ f ∈ g.fragments, Path.IsBareName f.hint := by
    intro f hf
    obtain ⟨p, -, hpart, hhint⟩ := Pipeline.hintName_of_runPaths hg f hf
    exact (isBareName_hint_iff config.generated_ok.2 hpart hhint).2 hmarker
  exact ⟨Writer.confined_of_bare r.outFolder files hbare, (Writer.accounts_of_write hbare hreport).settled⟩

theorem exits_of_generation {report : WriteReport} (hprepared : Prepared r files config paths)
    (hmarker : '/' ∉ config.generated.toList) (hdistinct : ¬Namesakes files paths)
    (hfree : ¬Colliding read config files paths) (hpassed : g.passed = true ↔ ¬Deficient read config files paths)
    (hg : ((Pipeline.reading read config).runPaths .fresh files paths).outcome = .ok g)
    (hreport : (Writer.write r.outFolder files g.fragments).outcome = .ok report) :
    Exits read r files (Writer.write r.outFolder files g.fragments).files (exitOf g) := by
  have hproper : ¬Misused r files := mt hprepared.misused_iff.1 hdistinct
  have honly : ∀ {P : Config → List Path → Prop}, (∃ config paths, Prepared r files config paths ∧ P config paths) ↔
      P config paths := by
    intro P
    constructor
    · rintro ⟨config', paths', hprepared', hP⟩
      obtain ⟨rfl, rfl⟩ := hprepared.unique hprepared'
      exact hP
    · exact fun hP => ⟨config, paths, hprepared, hP⟩
  refine ⟨?_, ?_, ?_, ?_, fun _ _ => ?_⟩
  · refine iff_of_false ?_ hproper
    rw [exitOf]
    split <;> decide
  · rw [honly, exitOf]
    by_cases hdeficient : Deficient read config files paths
    · rw [if_neg fun h => hpassed.1 h hdeficient]
      exact iff_of_true rfl ⟨hproper, Or.inr hdeficient⟩
    · rw [if_pos (hpassed.2 hdeficient)]
      exact iff_of_false (by decide) fun ⟨_, h⟩ => h.elim hfree hdeficient
  · rw [honly, exitOf]
    by_cases hdeficient : Deficient read config files paths
    · rw [if_neg fun h => hpassed.1 h hdeficient]
      exact iff_of_false (by decide) fun ⟨_, _, h⟩ => h hdeficient
    · rw [if_pos (hpassed.2 hdeficient)]
      exact iff_of_true rfl ⟨hproper, hfree, hdeficient⟩
  · rw [honly]
    rintro (hmisused | hcolliding)
    · exact absurd hmisused hproper
    · exact absurd hcolliding hfree
  · exact ⟨config, paths, g, hprepared, hg, rfl, written_of_runPaths hmarker hg hreport⟩

/-- **Sources.** What a request comes to whose configuration and sources are there. -/
theorem exits_of_prepared (hlawful : files.Lawful) (hprepared : Prepared r files config paths)
    (hmarker : '/' ∉ config.generated.toList)
    (h : (generateWith read r setup moment files config paths).outcome = .ok answer) :
    Exits read r files (generateWith read r setup moment files config paths).files answer.exit := by
  obtain ⟨-, hdiscover⟩ := prepared_iff.1 hprepared
  obtain ⟨es, rfl⟩ := Discovery.exists_top_of_discover hdiscover
  have hverdict := Pipeline.runPaths_verdict read config (Discovery.not_refused_of_discover hlawful hdiscover)
  rw [generateWith] at h ⊢
  cases houtcome : ((Pipeline.reading read config).runPaths .fresh (.folder es) paths).outcome with
  | error fault =>
    rw [houtcome] at hverdict
    simp only [houtcome] at h ⊢
    cases hverdict with
    | namesakes id same =>
      cases h
      exact exits_of_misused (hprepared.misused_iff.2 same)
    | collision event first second distinct colliding =>
      cases h
      exact exits_of_collision hprepared distinct colliding
  | ok g =>
    rw [houtcome] at hverdict
    simp only [houtcome] at h ⊢
    cases hverdict with
    | returned _ distinct free passed =>
      cases hreport : (Writer.write r.outFolder (.folder es) g.fragments).outcome with
      | error fault =>
        simp only [hreport] at h
        cases h
      | ok report =>
        simp only [hreport] at h ⊢
        cases h
        exact exits_of_generation hprepared hmarker distinct free passed houtcome hreport

end Exits

/-- **Exit codes.** In a lawful tree, take a request whose configuration has a marker without a slash, and whatever reads
its sources. If the command answers, its exit code is 2 exactly when the request is misuse, 1 exactly when it is not and
events collide or a source cannot be read or extracted from, and 0 exactly when nothing of this is so. After misuse and
after a collision the files are what they were. After any other request every fragment of its run is in its output file,
and no other file has changed. -/
theorem run_exits (read : SourceReader) (arguments : List String) (moment : String) (files : FileTree) (r : Request)
    (setup : Log.Setup) (answer : Answer) (hlawful : files.Lawful) (hask : ask arguments = .run r)
    (hsetup : Log.Setup.fresh.configure r.level r.logFormat.label = .ok setup)
    (hmarker : ∀ config paths, Prepared r files config paths → '/' ∉ config.generated.toList)
    (h : (runWith read arguments moment files).outcome = .ok answer) :
    Exits read r files (runWith read arguments moment files).files answer.exit := by
  have hrun : runWith read arguments moment files = performWith read r moment files := by
    simp only [runWith, hask]
  rw [hrun] at h ⊢
  simp only [performWith, hsetup] at h ⊢
  cases hprepare : prepare files (Path.ofString r.source) (r.config.map Path.ofString) with
  | error fault =>
    simp only [hprepare] at h ⊢
    split at h
    · rename_i hmisuse
      cases h
      rw [if_pos hmisuse]
      exact exits_of_misused (misused_of_prepare hmisuse hprepare)
    · cases h
  | ok prepared =>
    simp only [hprepare] at h ⊢
    exact exits_of_prepared hlawful hprepare (hmarker _ _ hprepare) h

/-! ### A source that cannot be read -/

namespace Sample

/-- a source, and another one that is no text -/
def sources : List (String × FileTree) :=
  [("Behavior.cs", .file (Text.Utf8.encode dying) true), ("Broken.cs", .file [0xFF] true)]

/-- the tree of both -/
def damaged : FileTree := .folder [("src", .folder sources)]

/-- where the other one is -/
def broken : Path := Path.ofString "src/Broken.cs"

theorem lawful_damaged : damaged.Lawful := by
  refine lawful_folder (by decide) fun e he => ?_
  obtain rfl := List.mem_singleton.1 he
  refine ⟨by decide, lawful_folder (by decide) fun e he => ?_⟩
  rcases List.mem_cons.1 he with rfl | he
  · exact ⟨by decide, lawful_file _ _⟩
  · obtain rfl := List.mem_singleton.1 he
    exact ⟨by decide, lawful_file _ _⟩

theorem prepared_damaged : Prepared request damaged .standard [artifact.path, broken] := by
  have hnone : ¬damaged.isFile (Path.ofString "src" / configName) = true := by decide +kernel
  have hroot : damaged.get (Path.ofString "src") = .ok (.folder sources) := rfl
  have hfound : Discovery.inEntries Discovery.standardExcludes Config.standard.generated (Path.ofString "src") sources =
      [artifact.path, broken] := by decide +kernel
  have hsorted : [artifact.path, broken].Pairwise fun p q => p.le q = true := by decide +kernel
  have hconfig : findConfig damaged (Path.ofString "src") none = .ok .standard := by rw [findConfig, if_neg hnone]
  refine prepared_iff.2 ⟨hconfig, ?_⟩
  change Discovery.discover damaged (Path.ofString "src") Discovery.standardExcludes Config.standard.generated = _
  rw [Discovery.discover_of_folder _ _ hroot, hfound, List.mergeSort_of_pairwise hsorted]

theorem readable_damaged : Pipeline.readable damaged [artifact.path, broken] = [artifact] := by decide +kernel

theorem unreadable_broken : ∃ reason, Artifact.Unreadable damaged broken reason := by
  have hnone : (Artifact.decode [0xFF]).toOption = none := by decide +kernel
  cases hdecode : Artifact.decode [0xFF] with
  | ok text =>
    rw [hdecode] at hnone
    cases hnone
  | error fault => exact ⟨_, .undecodable [0xFF] fault rfl hdecode⟩

/-- the first source is generated from -/
theorem exists_generation_damaged : ∃ g,
    ((Pipeline.reading sourceReader .standard).runPaths .fresh damaged [artifact.path, broken]).outcome = .ok g ∧
      g.fragments.length ≤ 1 ∧ ∀ f ∈ g.fragments, f.hint = "Behavior.g.cs" := by
  have hread : (Pipeline.readAll damaged [artifact.path, broken]).artifacts = [artifact] := by decide +kernel
  have hfault : (Pipeline.readAll damaged [artifact.path, broken]).fault = none := by
    rw [← Option.isNone_iff_eq_none]
    decide +kernel
  obtain ⟨g, hg⟩ : ∃ g, ((Pipeline.reading sourceReader .standard).run .fresh [artifact]).outcome = .ok g :=
    Pipeline.exists_run_of_events (U := fun _ => True) ["Died"] Pipeline.from_fresh (fun _ _ => trivial) (by decide)
      (by decide +kernel) (by decide)
  refine ⟨{ g with diagnostics := (Pipeline.readAll damaged [artifact.path, broken]).diagnostics ++ g.diagnostics },
    ?_, Pipeline.length_fragments_le (U := fun _ => True) Pipeline.kept_empty (fun _ _ => trivial) hg, fun f hf => ?_⟩
  · rw [Pipeline.runPaths]
    simp only [hfault, hread, hg]
    rfl
  · obtain ⟨a, ha, hhint⟩ :=
      Pipeline.hintName_of_run (U := fun _ => True) Pipeline.kept_empty (fun _ _ => trivial) hg f hf
    obtain rfl := List.mem_singleton.1 ha
    have hname : hintName artifact.id Config.standard.generated = .ok "Behavior.g.cs" := rfl
    exact Except.ok.inj (hhint.symm.trans hname)

/-- and the command answers -/
theorem exists_answer_damaged : ∃ answer, (runWith sourceReader ["src"] "now" damaged).outcome = .ok answer := by
  obtain ⟨g, hg, hlength, hhint⟩ := exists_generation_damaged
  obtain ⟨report, hreport⟩ : ∃ report, (Writer.write request.outFolder damaged g.fragments).outcome = .ok report :=
    exists_write_of_one hlength hhint (fun _ => rfl) fun _ => ⟨_, rfl⟩
  obtain ⟨setup, hsetup⟩ : ∃ setup, Log.Setup.fresh.configure request.level request.logFormat.label = .ok setup :=
    ⟨_, rfl⟩
  have hprepare : prepare damaged (Path.ofString request.source) (request.config.map Path.ofString) =
      .ok (.standard, [artifact.path, broken]) := prepared_damaged
  simp only [runWith, ask_src, performWith, hsetup, hprepare, generateWith, hg, hreport]
  exact ⟨_, rfl⟩

end Sample

theorem run_exits_sample : ∃ answer, Sample.damaged.Lawful ∧ ask ["src"] = .run Sample.request ∧
    (runWith sourceReader ["src"] "now" Sample.damaged).outcome = .ok answer ∧
    Exits sourceReader Sample.request Sample.damaged (runWith sourceReader ["src"] "now" Sample.damaged).files
      answer.exit ∧
    answer.exit = exitFailed := by
  obtain ⟨answer, hanswer⟩ := Sample.exists_answer_damaged
  have hexits := run_exits sourceReader ["src"] "now" Sample.damaged Sample.request _ answer Sample.lawful_damaged
    Sample.ask_src rfl (fun config paths hprepared => by
      obtain ⟨rfl, -⟩ := hprepared.unique Sample.prepared_damaged
      decide) hanswer
  refine ⟨answer, Sample.lawful_damaged, Sample.ask_src, hanswer, hexits, hexits.failed.2 ⟨?_, ?_⟩⟩
  · rw [Sample.prepared_damaged.misused_iff, Namesakes, Sample.readable_damaged]
    decide
  · exact ⟨_, _, Sample.prepared_damaged,
      Or.inr (Or.inl ⟨Sample.broken, List.mem_cons_of_mem _ List.mem_cons_self, Sample.unreadable_broken⟩)⟩

/-- **Below a file.** A request whose configuration is asked for below a file is answered as misuse, although the
configuration is not refused with a fault of the configuration, the source root is a folder, and there are no sources
that have the same name. -/
theorem misuse_below_file : ∃ r,
    ask ["src", "--config", "src/Behavior.cs/x.toml"] = .run r ∧ Sample.tree.Lawful ∧
    (∃ answer, (run ["src", "--config", "src/Behavior.cs/x.toml"] "now" Sample.tree).outcome = .ok answer ∧
      answer.exit = exitMisused) ∧
    (∀ key reason, findConfig Sample.tree (Path.ofString r.source) (r.config.map Path.ofString) ≠
      .error (.setting key reason)) ∧
    Sample.tree.isFolder (Path.ofString r.source) = true ∧
    ∀ config paths, ¬(Prepared r Sample.tree config paths ∧ Namesakes Sample.tree paths) := by
  have hask : ask ["src", "--config", "src/Behavior.cs/x.toml"] =
      .run { source := "src", config := some "src/Behavior.cs/x.toml" } := by decide +kernel
  have hload : findConfig Sample.tree (Path.ofString "src") (some (Path.ofString "src/Behavior.cs/x.toml")) =
      .error (.system .notFolder (Path.ofString "src/Behavior.cs/x.toml")) := rfl
  have hprepare : prepare Sample.tree (Path.ofString "src") (some (Path.ofString "src/Behavior.cs/x.toml")) =
      .error (.system .notFolder (Path.ofString "src/Behavior.cs/x.toml")) := by
    rw [prepare, hload]
    rfl
  refine ⟨_, hask, Sample.lawful_tree, ?_, fun key reason h => ?_, rfl, fun config paths h => ?_⟩
  · obtain ⟨setup, hsetup⟩ : ∃ setup, Log.Setup.fresh.configure Sample.request.level Sample.request.logFormat.label =
        .ok setup := ⟨_, rfl⟩
    have hrun : run ["src", "--config", "src/Behavior.cs/x.toml"] "now" Sample.tree =
        ⟨Sample.tree, .ok ⟨exitMisused, "", Sample.request.style.failure Report.standardWidth
          (Fault.system .notFolder (Path.ofString "src/Behavior.cs/x.toml")).message⟩⟩ := by
      simp only [run, runWith, hask, performWith, Option.map_some, hprepare]
      rfl
    rw [hrun]
    exact ⟨_, rfl, rfl⟩
  · cases hload.symm.trans h
  · cases hprepare.symm.trans h.1

end Cli

end SignalWiring
