/-
Runs on files, some of which cannot be read.

A file that is missing, forbidden or not UTF-8 becomes a notice, and the run goes on with the others. The file system
can refuse in two more ways: where the path leads to a folder, and where it leads through a file (`Artifact.Refused`).
These become no notice: the first of them ends the run on files before it has begun.

- `Artifact.read_cases`: a file becomes an artifact or a notice, or it is refused.
- `readAll_sifted`, `readAll_of_refused`: what is read of files of which none is refused, and of the others.
- `fault_of_run`: nothing but two artifacts of one name and a clash of events stops a run on artifacts.
- `runPaths_promised`: a run on files keeps what is promised, or it ends at the first file that is refused.
- `runPaths_of_folder`: runs that end there.
-/
import SignalWiring.Proofs.Files
import SignalWiring.Proofs.Transition

namespace SignalWiring

/-! ## One file -/

namespace FileTree

variable {t : FileTree} {here : Place} {parts : List String} {cause : SystemFault} {p : Path}

/-- a path cannot be followed where there is nothing on the way, or a file -/
theorem locate_error (h : locate t here parts = .error cause) : cause = .missing ∨ cause = .notFolder := by
  induction parts generalizing here with
  | nil => cases h
  | cons n rest ih =>
    rw [locate] at h
    split at h
    · split at h
      · exact ih h
      · exact ih h
    · cases h
      exact Or.inr rfl
    · cases h
      exact Or.inl rfl

theorem read_ne_exists : t.read p ≠ .error .exists := by
  intro h
  rw [read, get] at h
  cases hlocate : locate t [] p.parts with
  | error cause =>
    rw [hlocate] at h
    cases h
    rcases locate_error hlocate with hcause | hcause <;> cases hcause
  | ok place =>
    rw [hlocate] at h
    simp only at h
    split at h
    · rename_i e hget
      split at hget
      · cases hget
      · cases hget
        cases h
    · cases h
    · split at h
      · cases h
      · cases h

end FileTree

namespace Artifact

/-- the file at `p` is read as the artifact `a` -/
structure Reads (files : FileTree) (p : Path) (a : Artifact) : Prop where
  path : a.path = p
  text : ∃ bytes, files.read p = .ok bytes ∧ decode bytes = .ok a.content

/-- the file at `p` cannot be read, for a reason that is told -/
inductive Unreadable (files : FileTree) (p : Path) : String → Prop where
  | missing (found : files.read p = .error .missing) : Unreadable files p "file not found"
  | denied (found : files.read p = .error .denied) : Unreadable files p "permission denied"
  | undecodable (bytes : List UInt8) (fault : Text.Utf8.Fault) (found : files.read p = .ok bytes)
      (decoded : decode bytes = .error fault) : Unreadable files p s!"encoding error: {fault.message}"

/-- the file system refuses to read the file at `p`, and no reason is told -/
inductive Refused (files : FileTree) (p : Path) : SystemFault → Prop where
  | isFolder (found : files.read p = .error .isFolder) : Refused files p .isFolder
  | notFolder (found : files.read p = .error .notFolder) : Refused files p .notFolder

section Reading

variable {files : FileTree} {es : List (String × FileTree)} {p : Path} {a : Artifact} {cause : SystemFault}
  {reason : String}

theorem Refused.found (h : Refused files p cause) : files.read p = .error cause := by
  cases h with
  | isFolder h => exact h
  | notFolder h => exact h

theorem Unreadable.not_reads (h : Unreadable files p reason) : ¬Reads files p a := by
  rintro ⟨-, bytes, hfound, hdecoded⟩
  cases h with
  | missing h =>
    rw [h] at hfound
    cases hfound
  | denied h =>
    rw [h] at hfound
    cases hfound
  | undecodable bytes' fault h hfault =>
    obtain rfl := Except.ok.inj (hfound.symm.trans h)
    rw [hfault] at hdecoded
    cases hdecoded

theorem Unreadable.not_refused (h : Unreadable files p reason) : ¬Refused files p cause := by
  intro hrefused
  have hfound := hrefused.found
  cases h with
  | missing h =>
    rw [h] at hfound
    cases hfound
    cases hrefused
  | denied h =>
    rw [h] at hfound
    cases hfound
    cases hrefused
  | undecodable bytes fault h _ =>
    rw [h] at hfound
    cases hfound

theorem Unreadable.reason_ne (h : Unreadable files p reason) : reason ≠ "" := by
  cases h with
  | missing => decide
  | denied => decide
  | undecodable bytes fault _ _ =>
    apply append_ne_empty_left
    decide

/-- a path without a name leads to the top, which is a folder -/
theorem read_of_unnamed (h : p.name = "") : (FileTree.folder es).read p = .error .isFolder := by
  have hparts : p.parts = [] := by
    by_contra hne
    have hlast : p.name = p.parts.getLast hne := by
      rw [Path.name, List.getLastD_eq_getLast?, List.getLast?_eq_some_getLast hne]
      rfl
    exact (p.clean _ (List.getLast_mem hne)).1 (hlast.symm.trans h)
  rw [FileTree.read, FileTree.get, hparts]
  rfl

/-- a file that cannot be read has a name, since the top is a folder -/
theorem Unreadable.name_ne (h : Unreadable (.folder es) p reason) : p.name ≠ "" := fun hunnamed =>
  h.not_refused (.isFolder (read_of_unnamed hunnamed))

/-- **One file.** In a tree with a folder at the top, a file is read, or it cannot be read for a reason that is told,
or it is refused. -/
theorem read_cases (es : List (String × FileTree)) (p : Path) :
    (∃ a, read (.folder es) p = .ok a ∧ Reads (.folder es) p a) ∨
    (∃ reason, read (.folder es) p = .error (.unreadable p reason) ∧ Unreadable (.folder es) p reason) ∨
    ∃ cause, read (.folder es) p = .error (.system cause p) ∧ Refused (.folder es) p cause := by
  rw [read]
  cases hfound : (FileTree.folder es).read p with
  | error cause =>
    cases cause with
    | missing => exact Or.inr (Or.inl ⟨_, rfl, .missing hfound⟩)
    | denied => exact Or.inr (Or.inl ⟨_, rfl, .denied hfound⟩)
    | «exists» => exact absurd hfound FileTree.read_ne_exists
    | notFolder => exact Or.inr (Or.inr ⟨_, rfl, .notFolder hfound⟩)
    | isFolder => exact Or.inr (Or.inr ⟨_, rfl, .isFolder hfound⟩)
  | ok bytes =>
    cases hdecoded : decode bytes with
    | error fault =>
      simp only [hdecoded]
      exact Or.inr (Or.inl ⟨_, rfl, .undecodable bytes fault hfound hdecoded⟩)
    | ok text =>
      simp only [hdecoded]
      have hnamed : ¬p.name = "" := by
        intro hunnamed
        rw [read_of_unnamed hunnamed] at hfound
        cases hfound
      rw [make, dif_neg hnamed]
      exact Or.inl ⟨_, rfl, rfl, bytes, hfound, hdecoded⟩

end Reading

end Artifact

namespace Pipeline

open Artifact (Reads Unreadable Refused)

/-! ## Files in order -/

/-- the notice `d` tells that the file at `p` cannot be read; it gives the reason, unless the file is refused -/
structure Notice (files : FileTree) (p : Path) (d : Diagnostic) : Prop where
  kind : d.kind = .unreadableArtifact
  severity : d.severity = .error
  artifact : d.artifact = p.name
  nowhere : d.location = none
  message : Unreadable files p d.message ∨ ∃ cause, Refused files p cause

/-- files in order, with a notice for each that cannot be read, and the artifacts that the others are read as -/
inductive Sifted (files : FileTree) : List Path → List Diagnostic → List Artifact → Prop where
  | nil : Sifted files [] [] []
  | artifact {p : Path} {a : Artifact} {rest : List Path} {ds : List Diagnostic} {others : List Artifact}
      (reads : Reads files p a) (tail : Sifted files rest ds others) : Sifted files (p :: rest) ds (a :: others)
  | notice {p : Path} {d : Diagnostic} {rest : List Path} {ds : List Diagnostic} {others : List Artifact}
      (unread : ∀ a, ¬Reads files p a) (told : Notice files p d) (tail : Sifted files rest ds others) :
      Sifted files (p :: rest) (d :: ds) others

section Reading

variable {files : FileTree} {es : List (String × FileTree)} {p : Path} {rest before after paths : List Path}
  {cause : SystemFault} {reason : String}

theorem exists_notice (h : Unreadable (.folder es) p reason) :
    ∃ d, unreadable p.name reason = .ok d ∧ Notice (.folder es) p d := by
  rw [unreadable, Diagnostic.make_eq_ok h.reason_ne h.name_ne]
  exact ⟨_, rfl, rfl, rfl, rfl, rfl, Or.inl h⟩

/-- **No file is refused.** Then every file is sifted. -/
theorem readAll_sifted (h : ∀ p ∈ paths, ∀ cause, ¬Refused (.folder es) p cause) :
    (readAll (.folder es) paths).fault = none ∧
      Sifted (.folder es) paths (readAll (.folder es) paths).diagnostics (readAll (.folder es) paths).artifacts := by
  induction paths with
  | nil => exact ⟨rfl, .nil⟩
  | cons p rest ih =>
    obtain ⟨hfault, hsifted⟩ := ih fun q hq => h q (List.mem_cons_of_mem _ hq)
    rcases Artifact.read_cases es p with ⟨a, hread, hreads⟩ | ⟨reason, hread, hunreadable⟩ | ⟨cause, -, hrefused⟩
    · simp only [readAll, hread]
      exact ⟨hfault, .artifact hreads hsifted⟩
    · obtain ⟨d, hd, hnotice⟩ := exists_notice hunreadable
      simp only [readAll, hread, hd]
      exact ⟨hfault, .notice (fun _ => hunreadable.not_reads) hnotice hsifted⟩
    · exact absurd hrefused (h p List.mem_cons_self cause)

/-- **A file is refused.** Then reading ends at the first one, with what the file system says. -/
theorem readAll_of_refused (after : List Path) (hbefore : ∀ q ∈ before, ∀ cause, ¬Refused (.folder es) q cause)
    (h : Refused (.folder es) p cause) :
    (readAll (.folder es) (before ++ p :: after)).fault = some (.system cause p) := by
  induction before with
  | nil =>
    have hread : Artifact.read (.folder es) p = .error (.system cause p) := by
      rw [Artifact.read, h.found]
      cases h <;> rfl
    simp only [List.nil_append, readAll, hread]
  | cons q rest ih =>
    have hrest := ih fun x hx => hbefore x (List.mem_cons_of_mem _ hx)
    rcases Artifact.read_cases es q with ⟨a, hread, -⟩ | ⟨reason, hread, hunreadable⟩ | ⟨cause', -, hrefused⟩
    · simp only [List.cons_append, readAll, hread, hrest]
    · obtain ⟨d, hd, -⟩ := exists_notice hunreadable
      simp only [List.cons_append, readAll, hread, hd, hrest]
    · exact absurd hrefused (hbefore q List.mem_cons_self cause')

/-- files of which none is refused, or the first one that is -/
theorem exists_first_refused (files : FileTree) (paths : List Path) :
    (∀ p ∈ paths, ∀ cause, ¬Refused files p cause) ∨
    ∃ before p after cause, paths = before ++ p :: after ∧ (∀ q ∈ before, ∀ cause, ¬Refused files q cause) ∧
      Refused files p cause := by
  induction paths with
  | nil => exact Or.inl fun p hp => nomatch hp
  | cons p rest ih =>
    by_cases hp : ∃ cause, Refused files p cause
    · obtain ⟨cause, hcause⟩ := hp
      exact Or.inr ⟨[], p, rest, cause, rfl, fun q hq => (nomatch hq), hcause⟩
    · rw [not_exists] at hp
      have hcons : ∀ {qs : List Path}, (∀ q ∈ qs, ∀ cause, ¬Refused files q cause) →
          ∀ q ∈ p :: qs, ∀ cause, ¬Refused files q cause := by
        intro qs hqs q hq
        rcases List.mem_cons.1 hq with rfl | hq
        · exact hp
        · exact hqs q hq
      rcases ih with hrest | ⟨before, q, after, cause, rfl, hbefore, hcause⟩
      · exact Or.inl (hcons hrest)
      · exact Or.inr ⟨p :: before, q, after, cause, rfl, hcons hbefore, hcause⟩

end Reading

/-! ## Runs on files -/

section Runs

variable {read : SourceReader} {config : Config} {U : Artifact → Prop} {s : Session} {artifacts : List Artifact}
  {es : List (String × FileTree)} {p : Path} {paths before : List Path} {cause : SystemFault} {fault : Fault}

/-- **What stops a run.** Whatever the registry holds, nothing stops a run on artifacts but two artifacts of one name
and a clash of events. -/
theorem fault_of_run (h : Kept read config U s.cache) (hU : ∀ a ∈ artifacts, U a)
    (hfault : ((reading read config).run s artifacts).outcome = .error fault) :
    (∃ id, fault = .duplicateArtifact id) ∨ ∃ event first second, fault = .duplicateEvent event first second := by
  by_cases hids : (artifacts.map Artifact.id).Nodup
  · obtain ⟨after, extractions, records, hall, hyields, -⟩ := extractAll_yields h hU
    obtain ⟨-, notices, -, houtcome⟩ := run_of_extractAll hids hall
    rw [houtcome] at hfault
    rcases emit_cases (p := reading read config) (extractions.flatMap Extraction.diagnostics ++ notices)
      (isPart_of_live hyields) (mem_registry_of_live (nodup_live hyields hids)) with
      ⟨-, -, g, hg⟩ | ⟨event, first, second, -, herror⟩
    · rw [hg] at hfault
      cases hfault
    · rw [herror] at hfault
      cases hfault
      exact Or.inr ⟨event, first, second, rfl⟩
  · obtain ⟨id, hrun⟩ := run_of_repeated read config s hids
    rw [hrun] at hfault
    cases hfault
    exact Or.inl ⟨id, rfl⟩

/-- What is promised of a run on files: a notice for each file that cannot be read comes first, and the rest is the run
on the others. Only what stops that run stops it. -/
structure Promised (p : Pipeline) (s : Session) (files : FileTree) (paths : List Path) : Prop where
  sifted : ∃ ds artifacts, Sifted files paths ds artifacts ∧
    (p.runPaths s files paths).session = (p.run s artifacts).session ∧
    (p.runPaths s files paths).outcome =
      (p.run s artifacts).outcome.map fun g => { g with diagnostics := ds ++ g.diagnostics }
  faults : ∀ fault, (p.runPaths s files paths).outcome = .error fault →
    (∃ id, fault = .duplicateArtifact id) ∨ ∃ event first second, fault = .duplicateEvent event first second

/-- a run on files of which none is refused -/
theorem promised_of_readable (h : Kept read config U s.cache) (hU : ∀ a, U a)
    (hreadable : ∀ p ∈ paths, ∀ cause, ¬Refused (.folder es) p cause) :
    Promised (reading read config) s (.folder es) paths := by
  obtain ⟨hfault, hsifted⟩ := readAll_sifted hreadable
  have hrun : ((reading read config).runPaths s (.folder es) paths).session =
        ((reading read config).run s (readAll (.folder es) paths).artifacts).session ∧
      ((reading read config).runPaths s (.folder es) paths).outcome =
        ((reading read config).run s (readAll (.folder es) paths).artifacts).outcome.map fun g =>
          { g with diagnostics := (readAll (.folder es) paths).diagnostics ++ g.diagnostics } := by
    simp only [runPaths, hfault, and_self]
  refine ⟨⟨_, _, hsifted, hrun⟩, fun fault herror => ?_⟩
  rw [hrun.2] at herror
  cases houtcome : ((reading read config).run s (readAll (.folder es) paths).artifacts).outcome with
  | ok g =>
    rw [houtcome] at herror
    cases herror
  | error e =>
    rw [houtcome] at herror
    cases herror
    exact fault_of_run h (fun a _ => hU a) houtcome

/-- a run on files ends at the first one that is refused, and leaves the session as it was -/
theorem runPaths_of_refused (p : Pipeline) (s : Session) (after : List Path) {path : Path}
    (hbefore : ∀ q ∈ before, ∀ cause, ¬Refused (.folder es) q cause) (h : Refused (.folder es) path cause) :
    (p.runPaths s (.folder es) (before ++ path :: after)).outcome = .error (.system cause path) ∧
      (p.runPaths s (.folder es) (before ++ path :: after)).session = s := by
  simp only [runPaths, readAll_of_refused after hbefore h, and_self]

/-- which is not what is promised -/
theorem not_promised_of_system {p : Pipeline} {files : FileTree} {path : Path}
    (h : (p.runPaths s files paths).outcome = .error (.system cause path)) : ¬Promised p s files paths := by
  intro hpromised
  rcases hpromised.faults _ h with ⟨id, hfault⟩ | ⟨event, first, second, hfault⟩
  · cases hfault
  · cases hfault

end Runs

/-- **Runs on files.** Whatever was run before and whatever the registry holds: when none of the files is refused, a run
on them keeps what is promised. Else it ends at the first one that is, with what the file system says, and leaves
everything as it was. -/
theorem runPaths_promised (read : SourceReader) (config : Config) (calls : List Call) (registry : Registry)
    (es : List (String × FileTree)) (paths : List Path) :
    ((∀ p ∈ paths, ∀ cause, ¬Refused (.folder es) p cause) ∧
      Promised (reading read config) ((reading read config).historyOver calls registry) (.folder es) paths) ∨
    ∃ before p after cause, paths = before ++ p :: after ∧
      (∀ q ∈ before, ∀ cause, ¬Refused (.folder es) q cause) ∧ Refused (.folder es) p cause ∧
      ((reading read config).runPaths ((reading read config).historyOver calls registry) (.folder es) paths).outcome =
        .error (.system cause p) ∧
      ((reading read config).runPaths ((reading read config).historyOver calls registry) (.folder es) paths).session =
        (reading read config).historyOver calls registry ∧
      ¬Promised (reading read config) ((reading read config).historyOver calls registry) (.folder es) paths := by
  rcases exists_first_refused (.folder es) paths with hreadable | ⟨before, p, after, cause, rfl, hbefore, hrefused⟩
  · exact Or.inl ⟨hreadable,
      promised_of_readable (kept_historyOver read config calls registry) (fun _ => trivial) hreadable⟩
  · obtain ⟨houtcome, hsession⟩ := runPaths_of_refused (reading read config)
      ((reading read config).historyOver calls registry) after hbefore hrefused
    exact Or.inr ⟨before, p, after, cause, rfl, hbefore, hrefused, houtcome, hsession, not_promised_of_system houtcome⟩

namespace Sample

/-- a source, and a folder that is called like one -/
def entries : List (String × FileTree) :=
  [("Foo.cs", .file (Text.Utf8.encode Cache.Sample.jumping) true), ("Folder.cs", .folder [])]

/-- the tree of both -/
def tree : FileTree := .folder entries

/-- nothing has been run -/
def fresh : Session := outlining.historyOver [] .empty

def source : Path := Path.ofString "Foo.cs"

def folder : Path := Path.ofString "Folder.cs"

/-- a path through the source -/
def through : Path := Path.ofString "Foo.cs/Bar.cs"

theorem source_not_refused : ∀ q ∈ [source], ∀ cause, ¬Refused tree q cause := by
  intro q hq cause hrefused
  obtain rfl := List.mem_singleton.1 hq
  have hfound : tree.read source = .ok (Text.Utf8.encode Cache.Sample.jumping) := rfl
  rw [hrefused.found] at hfound
  cases hfound

end Sample

/-- **A folder among the files.** Neither with a folder after a readable source nor with a path through that source does
a run keep what is promised: it ends with what the file system says. -/
theorem runPaths_of_folder :
    (Sample.outlining.runPaths Sample.fresh Sample.tree [Sample.source, Sample.folder]).outcome =
      .error (.system .isFolder Sample.folder) ∧
    ¬Promised Sample.outlining Sample.fresh Sample.tree [Sample.source, Sample.folder] ∧
    (Sample.outlining.runPaths Sample.fresh Sample.tree [Sample.source, Sample.through]).outcome =
      .error (.system .notFolder Sample.through) ∧
    ¬Promised Sample.outlining Sample.fresh Sample.tree [Sample.source, Sample.through] := by
  obtain ⟨hfolder, -⟩ := runPaths_of_refused Sample.outlining Sample.fresh []
    Sample.source_not_refused (.isFolder (p := Sample.folder) rfl)
  obtain ⟨hthrough, -⟩ := runPaths_of_refused Sample.outlining Sample.fresh []
    Sample.source_not_refused (.notFolder (p := Sample.through) rfl)
  exact ⟨hfolder, not_promised_of_system hfolder, hthrough, not_promised_of_system hthrough⟩

end Pipeline

end SignalWiring
