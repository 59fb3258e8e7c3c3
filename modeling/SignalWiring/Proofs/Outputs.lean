/-
Where the output of a run goes.

The fragments of a run are those of different artifacts, so their output names are different as well, and a writing
never meets an output name for the second time (`outputs_distinct`).

An output name leads on from the output folder by its parts. It is one part, and the output file is in that folder, when
there is no slash in the marker. Configurations do not ask for that: they only look at where the marker begins and how
long it is. With a slash in the marker no output name is bare, and the output may be anywhere (`outputs_confined`,
`marker_with_slash`).
-/
import SignalWiring.Proofs.ChangeDetection
import SignalWiring.Proofs.OutputNames
import SignalWiring.Proofs.Rerun

namespace SignalWiring

open FileTree

/-! ## Writing into one folder -/

namespace Writer

/-- a writing stays in its folder; what was there before is `files` -/
structure Confined (out : Path) (files : FileTree) (fragments : List Fragment) : Prop where
  /-- every output file is directly in the folder -/
  children : ∀ f ∈ fragments, (out / f.hint).parent = out ∧ (out / f.hint).name = f.hint ∧
    placeOf (out / f.hint) = placeOf out ++ [f.hint]
  /-- whatever comes of the writing, no other file changes -/
  frame : Grows (places out fragments) files (write out files fragments).files
  /-- and nothing else is reported -/
  reported : ∀ report, (write out files fragments).outcome = .ok report →
    ∀ p ∈ report.written ++ report.unchanged, ∃ f ∈ fragments, p = out / f.hint

theorem parent_div (out : Path) {hint : String} (h : Path.IsPart hint) : (out / hint).parent = out := by
  have hparts : (out / hint).parts = out.parts ++ [hint] := Path.parts_div out h
  have hstart : (out / hint).start = out.start := by
    change (out.join (Path.ofString hint)).start = out.start
    rw [Path.join, show (Path.ofString hint).start = .here from Path.startOf_of_not_mem h.2.2]
  rw [Path.parent]
  simp only [hparts, hstart, List.dropLast_concat]

/-- **Bare names.** Under bare output names a writing stays in its folder. -/
theorem confined_of_bare (out : Path) (files : FileTree) {fragments : List Fragment}
    (hbare : ∀ f ∈ fragments, Path.IsBareName f.hint) : Confined out files fragments where
  children f hf :=
    have hpart := Path.isPart_of_isBareName (hbare f hf)
    ⟨parent_div out hpart, Path.name_div out hpart, Path.placeOf_div out (hbare f hf)⟩
  frame := (changes_writeFrom hbare).grows
  reported report h p hp := by
    obtain rfl := report_of_write hbare h
    have hlisted : ∀ {test : Fragment → Bool}, p ∈ listed out fragments test → ∃ f ∈ fragments, p = out / f.hint := by
      intro test hmem
      obtain ⟨f, hf, rfl⟩ := List.mem_map.1 hmem
      exact ⟨f, (List.mem_filter.1 hf).1, rfl⟩
    rcases List.mem_append.1 hp with hp | hp
    · exact hlisted hp
    · exact hlisted hp

end Writer

namespace Pipeline

section Outputs

variable {read : SourceReader} {config : Config} {U : Artifact → Prop} {s : Session} {artifacts : List Artifact}
  {g : Generation}

/-! ## The output names of a run -/

/-- **Different output names.** No two fragments of a run have the same output name. -/
theorem nodup_hints (h : Kept read config U s.cache) (hU : ∀ a ∈ artifacts, U a)
    (hg : ((reading read config).run s artifacts).outcome = .ok g) : (g.fragments.map Fragment.hint).Nodup := by
  obtain ⟨contexts, hnodup, hsub, hmade⟩ := fragments_of_run h hU hg
  have hpart := isPart_of_sublist hsub
  refine nodup_of_forall₂ hmade hnodup fun c hc d hd f f' hf hf' hsame => ?_
  have hhint := Emission.Renderer.hint_of_renderFragment hf
  have hhint' := Emission.Renderer.hint_of_renderFragment hf'
  rw [← hsame] at hhint'
  exact hintName_injective config.generated_ok.1 (hpart c hc) (hpart d hd) hhint hhint'

/-- **Bare output names.** Without a slash in the marker, every fragment of a run has a bare output name. -/
theorem bare_of_run (hmarker : '/' ∉ config.generated.toList) (h : Kept read config U s.cache)
    (hU : ∀ a ∈ artifacts, U a) (hg : ((reading read config).run s artifacts).outcome = .ok g) :
    ∀ f ∈ g.fragments, Path.IsBareName f.hint := by
  intro f hf
  obtain ⟨a, -, hhint⟩ := hintName_of_run h hU hg f hf
  exact (isBareName_hint_iff config.generated_ok.2 a.isPart_id hhint).2 hmarker

end Outputs

/-- **Output names never collide.** Whatever marker begins with a dot and goes on, different file names have different
output names, and none has its own. So whatever was run before and whatever the registry holds, the fragments of a run
that returns have different output names, and wherever they are written, no output name is met for the second time. -/
theorem outputs_distinct :
    (∀ marker : String, marker.toList.head? = some '.' → 2 ≤ marker.length →
      (∀ a b, Path.IsPart a → Path.IsPart b → hintName a marker = hintName b marker → a = b) ∧
      ∀ a, Path.IsPart a → ∃ hint, hintName a marker = .ok hint ∧ hint ≠ a) ∧
    ∀ read config calls registry artifacts g,
      ((reading read config).run ((reading read config).historyOver calls registry) artifacts).outcome = .ok g →
        (g.fragments.map Fragment.hint).Nodup ∧
        ∀ out files hint, (Writer.write out files g.fragments).outcome ≠ .error (.invalid (.repeatedOutput hint)) := by
  constructor
  · intro marker hdot hlength
    have hmarker := ne_empty_of_two_le hlength
    refine ⟨fun a b ha hb hsame => ?_, fun a ha => ?_⟩
    · obtain ⟨hint, hhint, -, -⟩ := exists_hintName ha hmarker
      exact hintName_injective hdot ha hb hhint (hsame ▸ hhint)
    · obtain ⟨hint, hhint, -, hne⟩ := exists_hintName ha hmarker
      exact ⟨hint, hhint, hne⟩
  · intro read config calls registry artifacts g hg
    have hnodup := nodup_hints (kept_historyOver read config calls registry) (fun _ _ => trivial) hg
    refine ⟨hnodup, fun out files hint h => ?_⟩
    obtain ⟨cause, path, hfault⟩ := Writer.fault_of_writeFrom hnodup (fun _ _ => List.not_mem_nil) h
    cases hfault

namespace Sample

/-- two sources, one of them in a file without an extension -/
def pair : List Artifact := [Cache.Sample.moved, ⟨Path.ofString "src/Foo", Cli.Sample.dying, by decide⟩]

/-- their run, the first one -/
def runOfPair : Step Generation := outlining.run (outlining.historyOver [] .empty) pair

theorem exists_runOfPair : ∃ g, runOfPair.outcome = .ok g :=
  exists_run_of_events (U := fun _ => True) ["Jumped", "Died"] from_fresh (fun _ _ => trivial) (by decide)
    (by decide +kernel) (by decide)

end Sample

theorem outputs_distinct_sample :
    (∃ hint, hintName "Foo.g" ".g" = .ok hint ∧ hint ≠ "Foo.g") ∧
    (hintName "Foo.g" ".g" = hintName "Foo" ".g" → "Foo.g" = "Foo") ∧
    ∃ g, Sample.runOfPair.outcome = .ok g ∧ (g.fragments.map Fragment.hint).Nodup ∧ ∀ out files hint,
      (Writer.write out files g.fragments).outcome ≠ .error (.invalid (.repeatedOutput hint)) := by
  obtain ⟨hnames, hruns⟩ := outputs_distinct
  obtain ⟨hinjective, hother⟩ := hnames ".g" (by decide) (by decide)
  obtain ⟨g, hg⟩ := Sample.exists_runOfPair
  exact ⟨hother "Foo.g" (by decide), hinjective "Foo.g" "Foo" (by decide) (by decide), g, hg, hruns _ _ _ _ _ g hg⟩

/-! ## The folder of a run -/

/-- **Where the output goes.** Every artifact has an output name, which is bare exactly when there is no slash in the
marker of the configuration. It leads on from any folder by its parts, and the fragment of the artifact has this name.
So without a slash in the marker, whatever was run before, the output of a run that returns is written into one
folder. -/
theorem outputs_confined (config : Config) :
    (∀ a : Artifact, ∃ hint, hintName a.id config.generated = .ok hint ∧
      (Path.IsBareName hint ↔ '/' ∉ config.generated.toList) ∧
      (∀ out : Path, (out / hint).start = out.start ∧ (out / hint).parts = out.parts ++ Path.partsOf hint) ∧
      ∀ c t f, c.artifact = a.id → ({ config := config } : Emission.Renderer).renderFragment c t = .ok f →
        f.hint = hint) ∧
    ('/' ∉ config.generated.toList → ∀ read calls registry artifacts g,
      ((reading read config).run ((reading read config).historyOver calls registry) artifacts).outcome = .ok g →
        ∀ out files, Writer.Confined out files g.fragments) := by
  constructor
  · intro a
    obtain ⟨hint, hhint, -, -⟩ := exists_hintName a.isPart_id (ne_empty_of_two_le config.generated_ok.2)
    refine ⟨hint, hhint, isBareName_hint_iff config.generated_ok.2 a.isPart_id hhint,
      fun out => parts_div_hint out a.isPart_id hhint, fun c t f hc hf => ?_⟩
    have hfragment := Emission.Renderer.hint_of_renderFragment hf
    rw [hc] at hfragment
    exact Except.ok.inj (hfragment.symm.trans hhint)
  · intro hmarker read calls registry artifacts g hg out files
    exact Writer.confined_of_bare out files
      (bare_of_run hmarker (kept_historyOver read config calls registry) (fun _ _ => trivial) hg)

theorem outputs_confined_sample :
    ∃ g, Sample.runOfPair.outcome = .ok g ∧ ∀ out files, Writer.Confined out files g.fragments := by
  obtain ⟨g, hg⟩ := Sample.exists_runOfPair
  exact ⟨g, hg, (outputs_confined Config.standard).2 (by decide) _ _ _ _ g hg⟩

namespace Sample

/-- a configuration whose marker has a slash -/
def slashed : Config := { Config.standard with generated := "./x", generated_ok := by decide }

/-- a source in a file whose name begins with two dots -/
def dotted : Artifact := ⟨Path.ofString "..cs", "partial class Behavior\n\x7b\n\x7d\n", by decide⟩

/-- what is extracted from it -/
def contextOfDotted : Context := ⟨"", "..cs", [], by decide⟩

def out : Path := Path.ofString "out"

/-- a fragment of that source is written beside the output folder -/
theorem write_beside {f : Fragment} (hf : f.hint = "../x.cs") :
    Writer.write out .empty [f] = ⟨.folder [("out", .folder []), ("x.cs", .file (Text.Utf8.encode f.source) true)],
      .ok { written := [out / "../x.cs"] }, [Writer.writtenRecord (out / "../x.cs") f]⟩ := by
  have hholds : ∀ bytes, Writer.holds .empty (out / "../x.cs") bytes = .ok false := fun _ => rfl
  have hput : ∀ bytes, Writer.put .empty out (out / "../x.cs") bytes =
      (.folder [("out", .folder []), ("x.cs", .file bytes true)], .ok ()) := fun _ => rfl
  have hnew : ¬([] : List String).contains "../x.cs" = true := by decide
  rw [Writer.write, Writer.writeFrom, hf, if_neg hnew]
  simp only [hholds, hput]
  rfl

end Sample

/-- **A slash in the marker.** Such a configuration is accepted. The output name of a source is no bare name then, and
its output file is not in the output folder. -/
theorem marker_with_slash :
    Config.ofArguments [("generated_suffix", .text "./x")] = .ok Sample.slashed ∧
    (extract (.ofText Cache.Sample.outlined) Sample.slashed Sample.dotted).toOption.bind Extraction.context =
      some Sample.contextOfDotted ∧
    ∃ t f, Assignment.assign [Sample.contextOfDotted] Sample.slashed.order BuiltinEvent.all = .ok t ∧
      ({ config := Sample.slashed } : Emission.Renderer).renderFragment Sample.contextOfDotted t = .ok f ∧
      ¬Path.IsBareName f.hint ∧ ∃ records, Writer.write Sample.out .empty [f] =
        ⟨.folder [("out", .folder []), ("x.cs", .file (Text.Utf8.encode f.source) true)],
          .ok { written := [Sample.out / "../x.cs"] }, records⟩ := by
  obtain ⟨t, ht⟩ : ∃ t, Assignment.assign [Sample.contextOfDotted] Sample.slashed.order BuiltinEvent.all = .ok t :=
    Assignment.exists_assign_all_iff.2 ⟨by decide, by decide⟩
  obtain ⟨f, hf⟩ : ∃ f, ({ config := Sample.slashed } : Emission.Renderer).renderFragment Sample.contextOfDotted t =
      .ok f := Emission.Renderer.exists_renderFragment (by decide) fun e he => nomatch he
  have hname : hintName "..cs" "./x" = .ok "../x.cs" := rfl
  have hhint : f.hint = "../x.cs" :=
    Except.ok.inj ((Emission.Renderer.hint_of_renderFragment hf).symm.trans hname)
  refine ⟨rfl, by decide +kernel, t, f, ht, hf, ?_, _, Sample.write_beside hhint⟩
  rw [hhint]
  decide

end Pipeline

end SignalWiring
