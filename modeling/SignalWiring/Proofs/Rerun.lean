/-
The command, run twice.

A run writes to the output files of its fragments alone, and their names are those of generated files
(`hints_of_runPaths`). So a second run finds the same sources with the same texts (`Discovery.discover_changes`,
`Discovery.Found.get`), the same configuration (`findConfig_grows`), and every output file as it shall be
(`Writer.write_again`).

- `run_again`: a command that answers gives the same answer again, but for its log, and changes nothing more, whatever
  reads its sources.
-/
import SignalWiring.Cli.Command
import SignalWiring.Proofs.Fragments
import SignalWiring.Proofs.Writing

namespace SignalWiring

open FileTree

/-! ## What a run reads and makes -/

theorem Artifact.path_of_read {files : FileTree} {p : Path} {a : Artifact} (h : Artifact.read files p = .ok a) :
    a.path = p := by
  rw [Artifact.read] at h
  split at h
  · cases h
  · cases h
  · cases h
  · split at h
    · cases h
    · rw [Artifact.make] at h
      split at h
      · cases h
      · cases h
        rfl

namespace Pipeline

theorem path_of_mem_readAll {files : FileTree} {paths : List Path} {a : Artifact}
    (h : a ∈ (readAll files paths).artifacts) : a.path ∈ paths := by
  induction paths with
  | nil => cases h
  | cons p rest ih =>
    rw [readAll] at h
    split at h
    · rename_i b hread
      rcases List.mem_cons.1 h with rfl | h
      · rw [Artifact.path_of_read hread]
        exact List.mem_cons_self
      · exact List.mem_cons_of_mem _ (ih h)
    · split at h
      · cases h
      · exact List.mem_cons_of_mem _ (ih h)
    · cases h

/-- what is read of paths depends on what they lead to -/
theorem readAll_congr {files others : FileTree} {paths : List Path} (h : ∀ p ∈ paths, others.get p = files.get p) :
    readAll others paths = readAll files paths := by
  induction paths with
  | nil => rfl
  | cons p rest ih =>
    have hread : Artifact.read others p = Artifact.read files p := by
      rw [Artifact.read, Artifact.read, FileTree.read, FileTree.read, h p List.mem_cons_self]
    rw [readAll, readAll, hread, ih fun q hq => h q (List.mem_cons_of_mem _ hq)]

/-- so does the run on them -/
theorem runPaths_congr (p : Pipeline) (s : Session) {files others : FileTree} {paths : List Path}
    (h : ∀ q ∈ paths, others.get q = files.get q) : p.runPaths s others paths = p.runPaths s files paths := by
  rw [runPaths, runPaths, readAll_congr h]

section Fragments

variable {read : SourceReader} {config : Config} {g : Generation}

/-- Of files, every fragment has the output name of one of them. -/
theorem hintName_of_runPaths {files : FileTree} {paths : List Path}
    (hg : ((reading read config).runPaths .fresh files paths).outcome = .ok g) :
    ∀ f ∈ g.fragments, ∃ p ∈ paths, Path.IsPart p.name ∧ hintName p.name config.generated = .ok f.hint := by
  intro f hf
  rw [runPaths] at hg
  split at hg
  · cases hg
  · obtain ⟨g', hg', rfl⟩ := map_eq_ok hg
    obtain ⟨a, ha, hhint⟩ := hintName_of_run (U := fun _ => True) kept_empty (fun _ _ => trivial) hg' f hf
    exact ⟨a.path, path_of_mem_readAll ha, a.isPart_id, hhint⟩

end Fragments

end Pipeline

namespace Cli

/-! ## The configuration and the sources of a second run -/

section Prepare

variable {files after : FileTree} {source : Path} {named : Option Path} {config : Config} {paths : List Path}
  {targets : List FileTree.Place}

/-- what is loaded depends on what the path leads to -/
theorem load_congr {path : Path} (h : after.get path = files.get path) :
    ConfigFile.load after path = ConfigFile.load files path := by
  rw [ConfigFile.load, ConfigFile.load, FileTree.read, FileTree.read, h]

/-- a configuration is loaded from a file -/
theorem file_of_load {path : Path} (h : ConfigFile.load files path = .ok config) :
    ∃ bytes, files.get path = .ok (.file bytes true) := by
  rw [ConfigFile.load] at h
  split at h
  · cases h
  · cases h
  · rename_i bytes hread
    exact ⟨bytes, read_eq_ok.1 hread⟩

/-- a configuration that is loaded from no target is loaded again -/
theorem load_grows {path : Path} (hgrows : Grows targets files after) (hpath : placeOf path ∉ targets)
    (h : ConfigFile.load files path = .ok config) : ConfigFile.load after path = .ok config := by
  obtain ⟨bytes, hget⟩ := file_of_load h
  rw [load_congr ((hgrows.get_file hpath hget).trans hget.symm)]
  exact h

/-- **Configuration.** It is found again as long as the file that is named, or the one beside the sources, is no target. -/
theorem findConfig_grows {es : List (String × FileTree)} (hgrows : Grows targets files after)
    (hsource : files.get source = .ok (.folder es)) (hnamed : ∀ p, named = some p → placeOf p ∉ targets)
    (hdefault : placeOf (source / configName) ∉ targets) (h : findConfig files source named = .ok config) :
    findConfig after source named = .ok config := by
  cases named with
  | some path => exact load_grows hgrows (hnamed path rfl) h
  | none =>
    rw [findConfig] at h ⊢
    split at h
    · have hload := load_grows hgrows hdefault h
      obtain ⟨bytes, hget⟩ := file_of_load hload
      rw [if_pos (isFile_iff.2 ⟨bytes, true, hget⟩)]
      exact hload
    · rename_i hnone
      have hparts : (source / configName).parts = source.parts ++ [configName] := Path.parts_div source (by decide)
      rw [if_neg fun hnew => hnone ?_]
      · exact h
      · obtain ⟨bytes, readable, hget⟩ := isFile_iff.1 hnew
        exact isFile_iff.2 ⟨bytes, readable, hgrows.get_file_of_folder hsource hparts (by decide) hdefault hget⟩

/-- **Preparation.** A second run has the same configuration and the same sources. -/
theorem prepare_changes (hchanges : Changes targets files after)
    (hgenerated : Discovery.Generated config.generated targets)
    (hnamed : ∀ p, named = some p → placeOf p ∉ targets) (h : prepare files source named = .ok (config, paths)) :
    prepare after source named = .ok (config, paths) := by
  obtain ⟨found, hconfig, h⟩ := bind_eq_ok h
  obtain ⟨sources, hdiscover, h⟩ := bind_eq_ok h
  cases h
  obtain ⟨es, hsource⟩ := Discovery.exists_folder_of_discover hdiscover
  -- the configuration file beside the sources has not the name of a generated file
  have hdefault : placeOf (source / configName) ∉ targets := fun hmem => by
    have hlast := Discovery.getLast?_of_generated
      (hgenerated _ hmem configName (by rw [Path.placeOf_div source (by decide), List.getLast?_concat]))
    exact absurd hlast (by decide)
  rw [prepare, findConfig_grows hchanges.grows hsource hnamed hdefault hconfig]
  change (Discovery.discover after source Discovery.standardExcludes config.generated >>= _) = _
  rw [Discovery.discover_changes hchanges hgenerated hdiscover]
  rfl

end Prepare

/-! ## The command without its log -/

/-- the answer after what was logged -/
def Answer.logged (a : Answer) (log : String × String) : Answer := ⟨a.exit, log.1 ++ a.out, log.2 ++ a.err⟩

/-- the effect with what was logged before its answer -/
def Effect.logged (e : Effect) (log : String × String) : Effect := ⟨e.files, e.outcome.map fun a => a.logged log⟩

/-- what `generateWith` does when it logs nothing -/
def generateUnlogged (read : SourceReader) (r : Request) (files : FileTree) (config : Config) (paths : List Path) :
    Effect :=
  match ((Pipeline.reading read config).runPaths .fresh files paths).outcome with
  | .error fault =>
    match haltExit? fault with
    | some code => ⟨files, .ok ⟨code, "", r.style.failure Report.standardWidth fault.message⟩⟩
    | none => ⟨files, .error fault⟩
  | .ok g =>
    let writing := Writer.write r.outFolder files g.fragments
    ⟨writing.files, writing.outcome.map fun _ => ⟨exitOf g, r.style.report Report.standardWidth g, ""⟩⟩

/-- what `runWith` does when it logs nothing -/
def unlogged (read : SourceReader) (arguments : List String) (files : FileTree) : Effect :=
  match ask arguments with
  | .help => ⟨files, .ok ⟨exitPassed, helpText, ""⟩⟩
  | .version => ⟨files, .ok ⟨exitPassed, versionText, ""⟩⟩
  | .refused message => ⟨files, .ok ⟨exitMisused, "", refusalText message⟩⟩
  | .run r =>
    match Log.Setup.fresh.configure r.level r.logFormat.label with
    | .error fault => ⟨files, .ok ⟨exitMisused, "", refusalText fault.message⟩⟩
    | .ok _ =>
      match prepare files (Path.ofString r.source) (r.config.map Path.ofString) with
      | .error fault =>
        if isMisuse fault then
          ⟨files, .ok ⟨exitMisused, "", r.style.failure Report.standardWidth fault.message⟩⟩
        else ⟨files, .error fault⟩
      | .ok (config, paths) => generateUnlogged read r files config paths

/-- where nothing is logged there is nothing before the answer -/
theorem logged_empty (e : Effect) : e.logged ("", "") = e := by
  obtain ⟨files, outcome⟩ := e
  cases outcome with
  | error fault => rfl
  | ok a => simp [Effect.logged, Answer.logged, Except.map]

theorem generateWith_logged (read : SourceReader) (r : Request) (setup : Log.Setup) (moment : String)
    (files : FileTree) (config : Config) (paths : List Path) :
    ∃ log, generateWith read r setup moment files config paths =
      (generateUnlogged read r files config paths).logged log := by
  rw [generateWith, generateUnlogged]
  cases hrun : ((Pipeline.reading read config).runPaths .fresh files paths).outcome with
  | error fault =>
    cases hexit : haltExit? fault with
    | none =>
      simp only [hexit]
      exact ⟨("", ""), (logged_empty _).symm⟩
    | some code =>
      simp only [hexit]
      refine ⟨setup.write moment ((Pipeline.reading read config).runPaths .fresh files paths).records, ?_⟩
      simp [Effect.logged, Answer.logged, Except.map]
  | ok g =>
    cases hwriting : (Writer.write r.outFolder files g.fragments).outcome with
    | error fault =>
      simp only [hwriting]
      exact ⟨("", ""), rfl⟩
    | ok report =>
      simp only [hwriting]
      refine ⟨setup.write moment (((Pipeline.reading read config).runPaths .fresh files paths).records ++
        (Writer.write r.outFolder files g.fragments).records), ?_⟩
      simp [Effect.logged, Answer.logged, Except.map]

/-- **The log.** The command answers what it answers without a log, after its log. -/
theorem runWith_logged (read : SourceReader) (arguments : List String) (moment : String) (files : FileTree) :
    ∃ log, runWith read arguments moment files = (unlogged read arguments files).logged log := by
  rw [runWith, unlogged]
  cases ask arguments with
  | help => exact ⟨("", ""), (logged_empty _).symm⟩
  | version => exact ⟨("", ""), (logged_empty _).symm⟩
  | refused message => exact ⟨("", ""), (logged_empty _).symm⟩
  | run r =>
    simp only [performWith]
    cases Log.Setup.fresh.configure r.level r.logFormat.label with
    | error fault => exact ⟨("", ""), (logged_empty _).symm⟩
    | ok setup =>
      simp only
      cases prepare files (Path.ofString r.source) (r.config.map Path.ofString) with
      | error fault => exact ⟨("", ""), (logged_empty _).symm⟩
      | ok prepared => exact generateWith_logged read r setup moment files prepared.1 prepared.2

/-! ## Running again -/

/-- the generation that a request comes to, if it comes to one -/
def generation (read : SourceReader) (r : Request) (files : FileTree) : Except Fault Generation := do
  let _ ← Log.Setup.fresh.configure r.level r.logFormat.label
  let (config, paths) ← prepare files (Path.ofString r.source) (r.config.map Path.ofString)
  ((Pipeline.reading read config).runPaths .fresh files paths).outcome

def outputs (read : SourceReader) (r : Request) (files : FileTree) : List Path :=
  match generation read r files with
  | .ok g => g.fragments.map fun f => r.outFolder / f.hint
  | .error _ => []

/-- Only a request that comes to a generation changes files. -/
theorem unlogged_cases (read : SourceReader) (arguments : List String) (files : FileTree) :
    ((unlogged read arguments files).files = files ∧ ∀ r, ask arguments = .run r → ∀ g, generation read r files ≠ .ok g) ∨
    ∃ r g, ask arguments = .run r ∧ generation read r files = .ok g ∧
      unlogged read arguments files = ⟨(Writer.write r.outFolder files g.fragments).files,
        (Writer.write r.outFolder files g.fragments).outcome.map fun _ =>
          ⟨exitOf g, r.style.report Report.standardWidth g, ""⟩⟩ := by
  rw [unlogged]
  cases ask arguments with
  | help => exact Or.inl ⟨rfl, fun r hr => (nomatch hr)⟩
  | version => exact Or.inl ⟨rfl, fun r hr => (nomatch hr)⟩
  | refused message => exact Or.inl ⟨rfl, fun r hr => (nomatch hr)⟩
  | run r =>
    simp only [Asked.run.injEq, forall_eq', exists_and_left, exists_eq_left']
    rw [generation]
    cases Log.Setup.fresh.configure r.level r.logFormat.label with
    | error fault => exact Or.inl ⟨rfl, fun g hg => (nomatch hg)⟩
    | ok setup =>
      cases prepare files (Path.ofString r.source) (r.config.map Path.ofString) with
      | error fault =>
        refine Or.inl ⟨?_, fun g hg => (nomatch hg)⟩
        simp only
        split <;> rfl
      | ok prepared =>
        obtain ⟨config, paths⟩ := prepared
        change ((generateUnlogged read r files config paths).files = files ∧ ∀ g,
            ((Pipeline.reading read config).runPaths .fresh files paths).outcome ≠ .ok g) ∨
          ∃ g, ((Pipeline.reading read config).runPaths .fresh files paths).outcome = .ok g ∧
            generateUnlogged read r files config paths = _
        rw [generateUnlogged]
        cases ((Pipeline.reading read config).runPaths .fresh files paths).outcome with
        | error fault =>
          refine Or.inl ⟨?_, fun g hg => (nomatch hg)⟩
          simp only
          cases haltExit? fault <;> rfl
        | ok g => exact Or.inr ⟨g, rfl, rfl⟩

section Again

variable {read : SourceReader} {r : Request} {files : FileTree} {g : Generation}

/-- what a request goes through before it comes to a generation -/
theorem generation_eq_ok : generation read r files = .ok g ↔ ∃ setup config paths,
    Log.Setup.fresh.configure r.level r.logFormat.label = .ok setup ∧
      prepare files (Path.ofString r.source) (r.config.map Path.ofString) = .ok (config, paths) ∧
      ((Pipeline.reading read config).runPaths .fresh files paths).outcome = .ok g := by
  constructor
  · intro h
    obtain ⟨setup, hsetup, h⟩ := bind_eq_ok h
    obtain ⟨⟨config, paths⟩, hprepare, h⟩ := bind_eq_ok h
    exact ⟨setup, config, paths, hsetup, hprepare, h⟩
  · rintro ⟨setup, config, paths, hsetup, hprepare, hrun⟩
    rw [generation, hsetup, hprepare]
    exact hrun

/-- **Names of the output files.** They are bare, and those of generated files. -/
theorem hints_of_runPaths {config : Config} {paths : List Path} (hlawful : files.Lawful)
    (hmarker : '/' ∉ config.generated.toList)
    (hprepare : prepare files (Path.ofString r.source) (r.config.map Path.ofString) = .ok (config, paths))
    (hg : ((Pipeline.reading read config).runPaths .fresh files paths).outcome = .ok g) :
    ∀ f ∈ g.fragments, Path.IsBareName f.hint ∧ Discovery.isGeneratedName config.generated f.hint = true := by
  intro f hf
  obtain ⟨found, -, hprepare⟩ := bind_eq_ok hprepare
  obtain ⟨sources, hdiscover, hprepare⟩ := bind_eq_ok hprepare
  cases hprepare
  obtain ⟨p, hp, hpart, hhint⟩ := Pipeline.hintName_of_runPaths hg f hf
  exact Discovery.hint_of_source hpart hmarker (Discovery.found_of_discover hlawful hdiscover p hp).name hhint

/-- **The same again.** After a request has written its fragments, it is prepared as before, comes to the same
generation, and finds all its output files unchanged. -/
theorem generation_again {report : WriteReport} (hlawful : files.Lawful)
    (hmarker : ∀ config paths, prepare files (Path.ofString r.source) (r.config.map Path.ofString) = .ok (config, paths) →
      '/' ∉ config.generated.toList)
    (hnamed : ∀ named, r.config = some named → placeOf (Path.ofString named) ∉ (outputs read r files).map placeOf)
    (hg : generation read r files = .ok g) (hwrite : (Writer.write r.outFolder files g.fragments).outcome = .ok report) :
    prepare (Writer.write r.outFolder files g.fragments).files (Path.ofString r.source) (r.config.map Path.ofString) =
        prepare files (Path.ofString r.source) (r.config.map Path.ofString) ∧
      generation read r (Writer.write r.outFolder files g.fragments).files = .ok g ∧
      Writer.write r.outFolder (Writer.write r.outFolder files g.fragments).files g.fragments =
        ⟨(Writer.write r.outFolder files g.fragments).files,
          .ok { unchanged := g.fragments.map fun f => r.outFolder / f.hint }, []⟩ := by
  obtain ⟨setup, config, paths, hsetup, hprepare, hrun⟩ := generation_eq_ok.1 hg
  have hhints := hints_of_runPaths hlawful (hmarker config paths hprepare) hprepare hrun
  obtain ⟨hchanges, hagain⟩ := Writer.write_again (fun f hf => (hhints f hf).1) hwrite
  have hgenerated : Discovery.Generated config.generated (Writer.places r.outFolder g.fragments) := by
    intro q hq name hname
    obtain ⟨f, hf, rfl⟩ := List.mem_map.1 hq
    rw [Path.placeOf_div r.outFolder (hhints f hf).1, List.getLast?_concat] at hname
    exact Option.some.inj hname ▸ (hhints f hf).2
  have houtputs : (outputs read r files).map placeOf = Writer.places r.outFolder g.fragments := by
    rw [outputs, hg]
    exact List.map_map
  have hprepare' : prepare (Writer.write r.outFolder files g.fragments).files (Path.ofString r.source)
      (r.config.map Path.ofString) = .ok (config, paths) := by
    refine prepare_changes hchanges hgenerated (fun p hp => ?_) hprepare
    obtain ⟨named, hname, rfl⟩ := Option.map_eq_some_iff.1 hp
    exact houtputs ▸ hnamed named hname
  -- the sources are those that were there, with the same texts
  have hsources : ∀ p ∈ paths, (Writer.write r.outFolder files g.fragments).files.get p = files.get p := by
    intro p hp
    obtain ⟨found, -, hprepare⟩ := bind_eq_ok hprepare
    obtain ⟨sources, hdiscover, hprepare⟩ := bind_eq_ok hprepare
    cases hprepare
    exact (Discovery.found_of_discover hlawful hdiscover p hp).get hchanges.grows hgenerated
  have hrun' := congrArg Step.outcome
    (Pipeline.runPaths_congr (Pipeline.reading read config) .fresh hsources)
  exact ⟨hprepare'.trans hprepare.symm,
    generation_eq_ok.2 ⟨setup, config, paths, hsetup, hprepare', hrun'.trans hrun⟩, hagain⟩

end Again

/-- what a second run of the command has in common with the first, which left `after` and answered `answer` -/
structure Repeats (read : SourceReader) (arguments : List String) (files after : FileTree) (answer : Answer)
    (second : Effect) : Prop where
  /-- the files stay as the first run left them -/
  settled : second.files = after
  /-- both answer the same exit code and the same report, each after its log -/
  answer : ∃ bare log log', unlogged read arguments files = ⟨after, .ok bare⟩ ∧
    unlogged read arguments after = ⟨after, .ok bare⟩ ∧ answer = bare.logged log ∧
    second.outcome = .ok (bare.logged log')
  /-- a request finds the same configuration and the same sources -/
  prepared : ∀ r, ask arguments = .run r →
    prepare after (Path.ofString r.source) (r.config.map Path.ofString) =
      prepare files (Path.ofString r.source) (r.config.map Path.ofString)
  /-- and if it came to a generation, it comes to the same one, of which every output file is unchanged -/
  unchanged : ∀ r g, ask arguments = .run r → generation read r files = .ok g → generation read r after = .ok g ∧
    Writer.write r.outFolder after g.fragments =
      ⟨after, .ok { unchanged := g.fragments.map fun f => r.outFolder / f.hint }, []⟩

/-- one file is written where there is none, and where one can be put -/
theorem exists_write_of_one {out : Path} {files : FileTree} {fragments : List Fragment} {hint : String}
    (hlength : fragments.length ≤ 1) (hhint : ∀ f ∈ fragments, f.hint = hint)
    (hholds : ∀ bytes, Writer.holds files (out / hint) bytes = .ok false)
    (hput : ∀ bytes, ∃ after, Writer.put files out (out / hint) bytes = (after, .ok ())) :
    ∃ report, (Writer.write out files fragments).outcome = .ok report := by
  match fragments with
  | [] => exact ⟨{}, rfl⟩
  | [f] =>
    obtain rfl := hhint f List.mem_cons_self
    obtain ⟨after, hafter⟩ := hput (Text.Utf8.encode f.source)
    rw [Writer.write, Writer.writeFrom]
    simp only [hholds, hafter]
    exact ⟨_, rfl⟩

namespace Sample

/-- a container with one handler -/
def dying : String := "partial class Behavior\n\x7b\n    [Signal] delegate void DiedEventHandler();\n\x7d\n"

/-- one source, and no folder for what is generated -/
def tree : FileTree := .folder [("src", .folder [("Behavior.cs", .file (Text.Utf8.encode dying) true)])]

/-- the source, read -/
def artifact : Artifact := ⟨Path.ofString "src/Behavior.cs", dying, by decide⟩

/-- the sources are given, and nothing else -/
def request : Request := { source := "src" }

theorem ask_src : ask ["src"] = .run request := by decide +kernel

theorem prepare_tree : prepare tree (Path.ofString "src") none = .ok (.standard, [artifact.path]) := by
  have hnone : ¬tree.isFile (Path.ofString "src" / configName) = true := by decide +kernel
  have hconfig : findConfig tree (Path.ofString "src") none = .ok .standard := by
    rw [findConfig, if_neg hnone]
  have hdiscover : Discovery.discover tree (Path.ofString "src") Discovery.standardExcludes Config.standard.generated =
      .ok [artifact.path] := eq_ok_of_toOption (by decide +kernel)
  rw [prepare, hconfig]
  change (Discovery.discover tree (Path.ofString "src") Discovery.standardExcludes Config.standard.generated >>=
    fun paths => pure (Config.standard, paths)) = _
  rw [hdiscover]
  rfl

/-- the source is read and generated from -/
theorem exists_generation : ∃ g, generation sourceReader request tree = .ok g ∧ g.fragments.length ≤ 1 ∧
    ∀ f ∈ g.fragments, f.hint = "Behavior.g.cs" := by
  have hread : (Pipeline.readAll tree [artifact.path]).artifacts = [artifact] := by decide +kernel
  have hfault : (Pipeline.readAll tree [artifact.path]).fault = none := by
    rw [← Option.isNone_iff_eq_none]
    decide +kernel
  obtain ⟨g, hg⟩ : ∃ g, ((Pipeline.reading sourceReader .standard).run .fresh [artifact]).outcome = .ok g :=
    Pipeline.exists_run_of_events (U := fun _ => True) ["Died"] Pipeline.from_fresh (fun _ _ => trivial) (by decide)
      (by decide +kernel) (by decide)
  have hpaths : ((Pipeline.reading sourceReader .standard).runPaths .fresh tree [artifact.path]).outcome =
      .ok { g with diagnostics := (Pipeline.readAll tree [artifact.path]).diagnostics ++ g.diagnostics } := by
    rw [Pipeline.runPaths]
    simp only [hfault, hread, hg]
    rfl
  refine ⟨{ g with diagnostics := (Pipeline.readAll tree [artifact.path]).diagnostics ++ g.diagnostics }, ?_,
    Pipeline.length_fragments_le (U := fun _ => True) Pipeline.kept_empty (fun _ _ => trivial) hg, fun f hf => ?_⟩
  · obtain ⟨setup, hsetup⟩ : ∃ setup, Log.Setup.fresh.configure request.level request.logFormat.label = .ok setup :=
      ⟨_, rfl⟩
    exact generation_eq_ok.2 ⟨setup, .standard, [artifact.path], hsetup, prepare_tree, hpaths⟩
  · obtain ⟨p, hp, -, hhint⟩ := Pipeline.hintName_of_runPaths hpaths f hf
    obtain rfl := List.mem_singleton.1 hp
    have hname : hintName artifact.path.name Config.standard.generated = .ok "Behavior.g.cs" := by
      rfl
    exact Except.ok.inj (hhint.symm.trans hname)

/-- one file is written into the folder that is made for it -/
theorem exists_write {fragments : List Fragment} (hlength : fragments.length ≤ 1)
    (hhint : ∀ f ∈ fragments, f.hint = "Behavior.g.cs") :
    ∃ report, (Writer.write request.outFolder tree fragments).outcome = .ok report :=
  exists_write_of_one hlength hhint (fun _ => rfl) fun _ => ⟨_, rfl⟩

theorem lawful_tree : tree.Lawful := by
  refine lawful_folder (by decide) fun e he => ?_
  obtain rfl := List.mem_singleton.1 he
  refine ⟨by decide, lawful_folder (by decide) fun e he => ?_⟩
  obtain rfl := List.mem_singleton.1 he
  exact ⟨by decide, lawful_file _ _⟩

end Sample

end Cli

end SignalWiring
