/-
Which files a writing reports.

After the first visit the output folder is there, and each visit sees what the place of its file held before the writing,
since no visit touches the files of the others (`report_of_folder`). Where an output name is there for the second time a
writing has done what it does with the fragments before (`writeFrom_of_repeated`).

The first visit alone may come before there is an output folder. Its path can then lead up and out of a folder that is
still missing, so that no file is seen where there is one; after the first file is written, the path leads there.

- `changes_writeFrom`: whatever comes of a writing, it changes the tree at the places of its output files alone.
- `fault_of_writeFrom`: with different output names nothing but the file system stops it.
- `write_accounts`: what a writing has done, and what its report says.
- `write_through_missing_folder`: a writing that reports otherwise than what was there before.
-/
import SignalWiring.Proofs.Scanning
import SignalWiring.Proofs.Writing

namespace SignalWiring

/-! ## Paths that do not lead up -/

namespace FileTree

/-- a place below a place leads through a folder -/
theorem exists_folder_of_below {t x : FileTree} {q r : Place} (h : t.at? (q ++ r) = some x) (hr : r ≠ []) :
    ∃ es, t.at? q = some (.folder es) := by
  by_contra hnone
  rw [not_exists] at hnone
  rw [at?_append_of_not_folder hnone hr] at h
  cases h

/-- parts that do not lead up can be followed as far as something is there -/
theorem locate_of_at? {t x : FileTree} {here : Place} {parts : List String} (hup : ".." ∉ parts)
    (h : t.at? (here ++ parts) = some x) : locate t here parts = .ok (here ++ parts) := by
  induction parts generalizing here with
  | nil => rw [locate, List.append_nil]
  | cons p rest ih =>
    obtain ⟨hp, hrest⟩ : p ≠ ".." ∧ ".." ∉ rest := by
      simp only [List.mem_cons, not_or] at hup
      exact ⟨Ne.symm hup.1, hup.2⟩
    obtain ⟨es, hes⟩ := exists_folder_of_below h (List.cons_ne_nil p rest)
    rw [List.append_cons] at h ⊢
    rw [locate, hes]
    simp only [if_neg hp]
    exact ih hrest h

theorem placeOf_of_no_up {p : Path} (hup : ".." ∉ p.parts) : placeOf p = p.parts := by
  suffices hresolve : ∀ here : Place, ∀ parts : List String, ".." ∉ parts → resolve here parts = here ++ parts from
    hresolve [] p.parts hup
  intro here parts hparts
  induction parts generalizing here with
  | nil => rw [resolve, List.append_nil]
  | cons n rest ih =>
    simp only [List.mem_cons, not_or] at hparts
    rw [resolve, if_neg (Ne.symm hparts.1), ih _ hparts.2, List.append_cons here n rest]

theorem isFolder_iff {t : FileTree} {p : Path} : t.isFolder p = true ↔ ∃ es, t.get p = .ok (.folder es) := by
  rw [isFolder]
  cases t.get p with
  | error e => simp
  | ok found => cases found <;> simp

/-- what is found under a name is in a folder -/
theorem isFolder_of_get_name {t x : FileTree} {out p : Path} {n : String} (hparts : p.parts = out.parts ++ [n])
    (hn : n ≠ "..") (h : t.get p = .ok x) : t.isFolder out = true := by
  obtain ⟨q, hlocate, -⟩ := get_eq_ok.1 h
  rw [hparts] at hlocate
  obtain ⟨above, es, habove, hes, -⟩ := of_locate_name hlocate hn
  exact isFolder_iff.2 ⟨es, get_eq_ok.2 ⟨above, habove, hes⟩⟩

/-- in a folder that is there, what is found under a name is what stands at its place -/
theorem get_name_of_folder {t x : FileTree} {out p : Path} {n : String} (hparts : p.parts = out.parts ++ [n])
    (hn : n ≠ "..") (hout : t.isFolder out = true) : t.get p = .ok x ↔ t.at? (placeOf p) = some x := by
  obtain ⟨es, hes⟩ := isFolder_iff.1 hout
  obtain ⟨q, hlocate, hq⟩ := get_eq_ok.1 hes
  have hname : locate t [] p.parts = .ok (q ++ [n]) := by
    rw [hparts, locate_append, hlocate]
    exact locate_name hq hn
  have hplace : q ++ [n] = placeOf p := locate_eq hname
  rw [get_eq_ok, hname, ← hplace]
  constructor
  · rintro ⟨q', hq', hx⟩
    rw [Except.ok.inj hq']
    exact hx
  · intro hx
    exact ⟨_, rfl, hx⟩

end FileTree

namespace Writer

open FileTree

section Visits

variable {out : Path} {files after : FileTree} {fragments rest before : List Fragment} {f : Fragment}
  {seen : List String} {report : WriteReport} {fault : Fault} {kept : Bool} {targets : List FileTree.Place}

/-! ## Visits -/

/-- after a visit that does not fail the output folder is there -/
theorem Visit.isFolder (h : Visit out files f after (.ok kept)) (hf : Path.IsBareName f.hint) :
    after.isFolder out = true :=
  isFolder_of_get_name (Path.parts_div out (Path.isPart_of_isBareName hf)) hf.2.2.1 (h.get hf)

/-! ## Writings, whatever comes of them -/

/-- **Changes.** Whatever comes of a writing, it changes the tree at the places of its output files alone. -/
theorem changes_writeFrom (hbare : ∀ f ∈ fragments, Path.IsBareName f.hint) :
    Changes (places out fragments) files (writeFrom out seen files fragments).files := by
  induction fragments generalizing seen files with
  | nil => exact .refl
  | cons f rest ih =>
    have hf := hbare f List.mem_cons_self
    have htarget : placeOf (out / f.hint) ∈ places out (f :: rest) := List.mem_cons_self
    by_cases hseen : f.hint ∈ seen
    · rw [writeFrom_of_seen hseen]
    · obtain ⟨after, done, hvisit⟩ := exists_visit out files f
      have hvisited := hvisit.changes hf htarget
      cases done with
      | error fault =>
        rw [writeFrom_cons_of_error hseen hvisit]
        exact hvisited
      | ok kept =>
        rw [writeFrom_cons_of_ok hseen hvisit]
        have hrest : Changes (places out rest) after (writeFrom out (f.hint :: seen) after rest).files :=
          ih fun g hg => hbare g (List.mem_cons_of_mem _ hg)
        exact hvisited.trans (hrest.mono fun q hq => List.mem_cons_of_mem _ hq)

/-- **Faults.** With different output names, none of which was there before, nothing but the file system stops a
writing. -/
theorem fault_of_writeFrom (hnodup : (fragments.map Fragment.hint).Nodup) (hnew : ∀ f ∈ fragments, f.hint ∉ seen)
    (h : (writeFrom out seen files fragments).outcome = .error fault) : ∃ cause path, fault = .system cause path := by
  induction fragments generalizing seen files fault with
  | nil => cases h
  | cons f rest ih =>
    obtain ⟨hother, hrest⟩ := List.nodup_cons.1 hnodup
    have hf := hnew f List.mem_cons_self
    obtain ⟨after, done, hvisit⟩ := exists_visit out files f
    cases done with
    | error e =>
      rw [writeFrom_cons_of_error hf hvisit] at h
      cases h
      exact hvisit.refused
    | ok kept =>
      rw [writeFrom_cons_of_ok hf hvisit, noted] at h
      cases hout : (writeFrom out (f.hint :: seen) after rest).outcome with
      | ok r =>
        rw [hout] at h
        cases h
      | error e =>
        rw [hout] at h
        cases h
        refine ih hrest (fun g hg hmem => ?_) hout
        rcases List.mem_cons.1 hmem with hsame | hmem
        · exact hother (hsame ▸ List.mem_map_of_mem hg)
        · exact hnew g (List.mem_cons_of_mem _ hg) hmem

/-- **Repetition.** A writing does nothing more at an output name that was there before. -/
theorem writeFrom_of_repeated (out : Path) (files : FileTree) (rest : List Fragment)
    (h : f.hint ∈ before.map Fragment.hint ∨ f.hint ∈ seen) :
    (writeFrom out seen files (before ++ f :: rest)).files = (writeFrom out seen files before).files ∧
    (writeFrom out seen files (before ++ f :: rest)).outcome =
      (writeFrom out seen files before).outcome.bind fun _ => .error (.invalid (.repeatedOutput f.hint)) := by
  induction before generalizing seen files with
  | nil =>
    have hseen : f.hint ∈ seen := by simpa using h
    rw [List.nil_append, writeFrom_of_seen hseen]
    exact ⟨rfl, rfl⟩
  | cons g before ih =>
    rw [List.cons_append]
    by_cases hseen : g.hint ∈ seen
    · rw [writeFrom_of_seen hseen, writeFrom_of_seen hseen]
      exact ⟨rfl, rfl⟩
    · obtain ⟨after, done, hvisit⟩ := exists_visit out files g
      cases done with
      | error e =>
        rw [writeFrom_cons_of_error hseen hvisit, writeFrom_cons_of_error hseen hvisit]
        exact ⟨rfl, rfl⟩
      | ok kept =>
        rw [writeFrom_cons_of_ok hseen hvisit, writeFrom_cons_of_ok hseen hvisit]
        have hlater : f.hint ∈ before.map Fragment.hint ∨ f.hint ∈ g.hint :: seen := by
          simp only [List.map_cons, List.mem_cons] at h ⊢
          tauto
        obtain ⟨hfiles, houtcome⟩ := ih after hlater
        refine ⟨hfiles, ?_⟩
        simp only [noted, houtcome]
        cases (writeFrom out (g.hint :: seen) after before).outcome <;> rfl

theorem write_of_repeated (out : Path) (files : FileTree) (rest : List Fragment)
    (h : f.hint ∈ before.map Fragment.hint) :
    (write out files (before ++ f :: rest)).files = (write out files before).files ∧
    (write out files (before ++ f :: rest)).outcome =
      (write out files before).outcome.bind fun _ => .error (.invalid (.repeatedOutput f.hint)) :=
  writeFrom_of_repeated out files rest (Or.inl h)

/-! ## Reports -/

/-- the place of its output file holds the bytes of a fragment -/
def held (out : Path) (files : FileTree) (f : Fragment) : Bool :=
  match files.at? (placeOf (out / f.hint)) with
  | some (.file bytes true) => bytes == Text.Utf8.encode f.source
  | _ => false

theorem held_iff :
    held out files f = true ↔ files.at? (placeOf (out / f.hint)) = some (.file (Text.Utf8.encode f.source) true) := by
  rw [held]
  split
  · rename_i bytes hat
    rw [hat]
    simp
  · rename_i hother
    refine iff_of_false Bool.false_ne_true ?_
    exact hother _

/-- in a folder that is there, a file holds the bytes if its place does -/
theorem holds_iff_held (hf : Path.IsBareName f.hint) (hout : files.isFolder out = true) :
    holds files (out / f.hint) (Text.Utf8.encode f.source) = .ok true ↔ held out files f = true := by
  rw [holds_eq_true, held_iff]
  exact get_name_of_folder (Path.parts_div out (Path.isPart_of_isBareName hf)) hf.2.2.1 hout

/-- changes at other places leave what the place of a file holds -/
theorem held_grows (h : Grows targets files after) (hf : placeOf (out / f.hint) ∉ targets) :
    held out after f = held out files f := by
  rw [Bool.eq_iff_iff, held_iff, held_iff]
  exact h.files hf

/-- a visit does not touch the files of the others -/
theorem Visit.held_others {done : Except Fault Bool} (h : Visit out files f after done) (hf : Path.IsBareName f.hint)
    (hrest : ∀ g ∈ rest, Path.IsBareName g.hint) (hnew : f.hint ∉ rest.map Fragment.hint) :
    ∀ g ∈ rest, held out after g = held out files g := by
  intro g hg
  have hchanges : Changes [placeOf (out / f.hint)] files after := h.changes hf List.mem_cons_self
  refine held_grows hchanges.grows fun hplace => hnew ?_
  rw [List.mem_singleton, Path.placeOf_div out (hrest g hg), Path.placeOf_div out hf] at hplace
  have hsame : g.hint = f.hint := by simpa using hplace
  exact hsame ▸ List.mem_map_of_mem hg

/-- what a writing lists: all output files whose fragments satisfy a test -/
def listed (out : Path) (fragments : List Fragment) (test : Fragment → Bool) : List Path :=
  (fragments.filter test).map fun f => out / f.hint

theorem listed_congr {test test' : Fragment → Bool} (h : ∀ f ∈ fragments, test f = test' f) :
    listed out fragments test = listed out fragments test' := by
  rw [listed, listed, List.filter_congr h]

/-- a report that starts with one visit -/
theorem listed_cons {r : WriteReport} {test : Fragment → Bool} (htest : test f = kept)
    (hunchanged : r.unchanged = listed out rest test) (hwritten : r.written = listed out rest fun f => !test f) :
    (if kept then { r with unchanged := out / f.hint :: r.unchanged }
      else { r with written := out / f.hint :: r.written }) =
      (⟨listed out (f :: rest) fun f => !test f, listed out (f :: rest) test⟩ : WriteReport) := by
  subst htest
  rw [listed, List.filter_cons, listed, List.filter_cons]
  cases hf : test f with
  | true => simp [hunchanged, hwritten, listed]
  | false => simp [hunchanged, hwritten, listed]

/-- **Reports.** Where the output folder is there, a writing leaves alone the files whose places held the bytes, and
writes the others. -/
theorem report_of_folder (hbare : ∀ f ∈ fragments, Path.IsBareName f.hint) (hout : files.isFolder out = true)
    (h : (writeFrom out seen files fragments).outcome = .ok report) :
    report = ⟨listed out fragments fun f => !held out files f, listed out fragments (held out files)⟩ := by
  induction fragments generalizing seen files report with
  | nil =>
    cases h
    rfl
  | cons f rest ih =>
    have hf := hbare f List.mem_cons_self
    have hrest : ∀ g ∈ rest, Path.IsBareName g.hint := fun g hg => hbare g (List.mem_cons_of_mem _ hg)
    have hnew := (List.nodup_cons.1 (writeFrom_changes hbare h).1).1
    obtain ⟨-, after, kept, r, hvisit, hr, -, rfl⟩ := writeFrom_cons h
    obtain rfl := ih hrest (hvisit.isFolder hf) hr
    have hkept : held out files f = kept := by
      rw [Bool.eq_iff_iff, ← holds_iff_held hf hout]
      cases hvisit with
      | kept hholds => simp [hholds]
      | written _ hholds _ => simp [hholds]
    have hothers : ∀ g ∈ rest, held out after g = held out files g := hvisit.held_others hf hrest hnew
    exact listed_cons hkept (listed_congr hothers) (listed_congr fun g hg => congrArg (!·) (hothers g hg))

/-- a writing that writes nothing changes nothing -/
theorem files_of_idle (h : (writeFrom out seen files fragments).outcome = .ok report) (hidle : report.written = []) :
    (writeFrom out seen files fragments).files = files := by
  induction fragments generalizing seen files report with
  | nil => rfl
  | cons f rest ih =>
    obtain ⟨-, after, kept, r, hvisit, hr, hfiles, rfl⟩ := writeFrom_cons h
    cases hvisit with
    | kept =>
      rw [hfiles]
      exact ih hr hidle
    | written => cases hidle

end Visits

/-! ## Accounts -/

/-- A writing leaves the output file of a fragment alone: its place holds the bytes, and it is not the first one in a
folder to which the path does not lead yet. -/
def leaves (out : Path) (files : FileTree) (fragments : List Fragment) (f : Fragment) : Bool :=
  held out files f && (files.isFolder out || (fragments.head?.map Fragment.hint) != some f.hint)

/-- what a writing has done that comes to its end; `files` is the tree before it, and `after` the tree then -/
structure Accounts (out : Path) (files : FileTree) (fragments : List Fragment) (after : FileTree)
    (report : WriteReport) : Prop where
  distinct : (fragments.map Fragment.hint).Nodup
  /-- every output file holds the bytes of its fragment -/
  settled : Settled out fragments after
  /-- every other file is what it was -/
  frame : Grows (places out fragments) files after
  /-- where nothing is written no folder is made either -/
  idle : report.written = [] → after = files
  unchanged : report.unchanged = listed out fragments (leaves out files fragments)
  written : report.written = listed out fragments fun f => !leaves out files fragments f
  /-- what is left alone are the files that could be read there before, unless the path of the folder leads up and there
  was no such folder -/
  read : files.isFolder out = true ∨ ".." ∉ out.parts → ∀ f ∈ fragments,
    (leaves out files fragments f = true ↔ files.read (out / f.hint) = .ok (Text.Utf8.encode f.source))

section Accounts

variable {out : Path} {files : FileTree} {fragments : List Fragment} {f : Fragment} {report : WriteReport}

/-- the report of a writing, wherever its path leads -/
theorem report_of_write (hbare : ∀ f ∈ fragments, Path.IsBareName f.hint)
    (h : (write out files fragments).outcome = .ok report) :
    report = ⟨listed out fragments fun f => !leaves out files fragments f,
      listed out fragments (leaves out files fragments)⟩ := by
  by_cases hout : files.isFolder out = true
  · have hleaves : leaves out files fragments = held out files := by
      funext f
      simp [leaves, hout]
    rw [hleaves]
    exact report_of_folder hbare hout h
  · cases fragments with
    | nil =>
      cases h
      rfl
    | cons f rest =>
      have hf := hbare f List.mem_cons_self
      have hrest : ∀ g ∈ rest, Path.IsBareName g.hint := fun g hg => hbare g (List.mem_cons_of_mem _ hg)
      have hnew := (List.nodup_cons.1 (writeFrom_changes hbare h).1).1
      obtain ⟨-, after, kept, r, hvisit, hr, -, rfl⟩ := writeFrom_cons h
      obtain rfl := report_of_folder hrest (hvisit.isFolder hf) hr
      -- no file is seen where the path does not lead
      have hfirst : leaves out files (f :: rest) f = kept := by
        cases hvisit with
        | kept hholds => exact absurd ((Visit.kept hholds).isFolder hf) hout
        | written => simp [leaves, hout]
      have hothers : ∀ g ∈ rest, held out after g = leaves out files (f :: rest) g := by
        intro g hg
        have hne : f.hint ≠ g.hint := fun hsame => hnew (hsame ▸ List.mem_map_of_mem hg)
        rw [hvisit.held_others hf hrest hnew g hg, leaves]
        simp [hne]
      exact listed_cons hfirst (listed_congr hothers) (listed_congr fun g hg => congrArg (!·) (hothers g hg))

/-- what is left alone could be read before, where the path of the folder leads there or does not lead up -/
theorem leaves_iff_read (hf : Path.IsBareName f.hint) (hout : files.isFolder out = true ∨ ".." ∉ out.parts) :
    leaves out files fragments f = true ↔ files.read (out / f.hint) = .ok (Text.Utf8.encode f.source) := by
  have hparts := Path.parts_div out (Path.isPart_of_isBareName hf)
  by_cases hfolder : files.isFolder out = true
  · rw [leaves, hfolder, Bool.true_or, Bool.and_true, held_iff, read_eq_ok]
    exact (get_name_of_folder hparts hf.2.2.1 hfolder).symm
  · have hup := hout.resolve_left hfolder
    refine iff_of_false (fun hleaves => hfolder ?_) fun hread => hfolder ?_
    · -- what stands below a place shows that the folder is there
      have hat := held_iff.1 (Bool.and_eq_true_iff.1 hleaves).1
      rw [Path.placeOf_div out hf, placeOf_of_no_up hup] at hat
      obtain ⟨es, hes⟩ := exists_folder_of_below hat (List.cons_ne_nil f.hint [])
      exact isFolder_iff.2 ⟨es, get_eq_ok.2 ⟨out.parts, locate_of_at? hup hes, hes⟩⟩
    · exact isFolder_of_get_name hparts hf.2.2.1 (read_eq_ok.1 hread)

/-- **What a writing has done** that comes to its end. -/
theorem accounts_of_write (hbare : ∀ f ∈ fragments, Path.IsBareName f.hint)
    (h : (write out files fragments).outcome = .ok report) :
    Accounts out files fragments (write out files fragments).files report := by
  obtain ⟨hnodup, -, hchanges, hsettled⟩ := writeFrom_changes hbare h
  obtain rfl := report_of_write hbare h
  exact ⟨hnodup, hsettled, hchanges.grows, files_of_idle h, rfl, rfl,
    fun hout f hf => leaves_iff_read (hbare f hf) hout⟩

end Accounts

/-- **Change detection.** Of a writing under bare output names that comes to its end, the report lists every output
file, and the same writing again leaves all of them alone. When an output name occurs twice and the file system refuses
nothing, a writing stops where a name occurs for the second time, and has written what comes before. -/
theorem write_accounts (out : Path) (files : FileTree) (fragments : List Fragment)
    (hbare : ∀ f ∈ fragments, Path.IsBareName f.hint) :
    (∀ report, (write out files fragments).outcome = .ok report →
      Accounts out files fragments (write out files fragments).files report ∧
      write out (write out files fragments).files fragments =
        ⟨(write out files fragments).files, .ok { unchanged := fragments.map fun f => out / f.hint }, []⟩) ∧
    (¬(fragments.map Fragment.hint).Nodup →
      (∀ cause path, (write out files fragments).outcome ≠ .error (.system cause path)) →
      ∃ before f rest report, fragments = before ++ f :: rest ∧ (before.map Fragment.hint).Nodup ∧
        f.hint ∈ before.map Fragment.hint ∧
        (write out files fragments).outcome = .error (.invalid (.repeatedOutput f.hint)) ∧
        Accounts out files before (write out files fragments).files report) := by
  constructor
  · intro report h
    exact ⟨accounts_of_write hbare h, (write_again hbare h).2⟩
  · intro hrepeated hrefused
    obtain ⟨before, f, rest, rfl, hnodup, hmem, -⟩ := exists_first_repeated Fragment.hint hrepeated
    obtain ⟨hfiles, houtcome⟩ := write_of_repeated out files rest hmem
    rw [houtcome] at hrefused
    rw [houtcome, hfiles]
    cases hbefore : (write out files before).outcome with
    | error fault =>
      obtain ⟨cause, path, rfl⟩ := fault_of_writeFrom hnodup (fun _ _ => List.not_mem_nil) hbefore
      rw [hbefore] at hrefused
      exact absurd rfl (hrefused cause path)
    | ok report =>
      refine ⟨before, f, rest, report, rfl, hnodup, hmem, rfl, ?_⟩
      exact accounts_of_write (fun g hg => hbare g (List.mem_append_left _ hg)) hbefore

namespace Sample

/-- a fragment whose file is not there yet -/
def added : Fragment := ⟨"Added.cs", "Added.g.cs", "a", false, by decide, by decide, by decide⟩

/-- a fragment whose file holds its bytes -/
def same : Fragment := ⟨"Same.cs", "Same.g.cs", "s", false, by decide, by decide, by decide⟩

/-- a fragment whose file holds other bytes -/
def changed : Fragment := ⟨"Changed.cs", "Changed.g.cs", "c", false, by decide, by decide, by decide⟩

/-- one of each kind -/
def fragments : List Fragment := [added, same, changed]

/-- the tree before they are written -/
def tree : FileTree := .folder [("out", .folder [("Same.g.cs", .file (Text.Utf8.encode "s") true),
  ("Changed.g.cs", .file (Text.Utf8.encode "before") true)])]

/-- the output folder of the tree -/
def out : Path := Path.ofString "out"

/-- the same folder on a way through a folder that is missing -/
def aside : Path := Path.ofString "new/../out"

/-- the tree after they are written -/
def written : FileTree := (write out tree fragments).files

theorem bare : ∀ f ∈ fragments, Path.IsBareName f.hint := by decide

theorem same_hint_mem : same.hint ∈ fragments.map Fragment.hint := by decide

end Sample

theorem write_accounts_sample :
    (∃ report, (write Sample.out Sample.tree Sample.fragments).outcome = .ok report ∧
      report.written = [Sample.out / "Added.g.cs", Sample.out / "Changed.g.cs"] ∧
      report.unchanged = [Sample.out / "Same.g.cs"] ∧
      Accounts Sample.out Sample.tree Sample.fragments Sample.written report) ∧
    ∃ before f rest report, Sample.fragments ++ [Sample.same] = before ++ f :: rest ∧
      (write Sample.out Sample.tree (Sample.fragments ++ [Sample.same])).outcome =
        .error (.invalid (.repeatedOutput f.hint)) ∧
      Accounts Sample.out Sample.tree before
        (write Sample.out Sample.tree (Sample.fragments ++ [Sample.same])).files report := by
  have hok : (write Sample.out Sample.tree Sample.fragments).outcome =
      .ok ⟨[Sample.out / "Added.g.cs", Sample.out / "Changed.g.cs"], [Sample.out / "Same.g.cs"]⟩ :=
    rfl
  have hrepeated : (write Sample.out Sample.tree (Sample.fragments ++ [Sample.same])).outcome =
      .error (.invalid (.repeatedOutput "Same.g.cs")) := by
    obtain ⟨-, houtcome⟩ := write_of_repeated Sample.out Sample.tree [] Sample.same_hint_mem
    rw [houtcome, hok]
    rfl
  refine ⟨⟨_, hok, rfl, rfl, ((write_accounts _ _ _ Sample.bare).1 _ hok).1⟩, ?_⟩
  obtain ⟨before, f, rest, report, hsplit, -, -, houtcome, haccounts⟩ :=
    (write_accounts Sample.out Sample.tree (Sample.fragments ++ [Sample.same]) (by decide)).2 (by decide)
      fun cause path h => by
        rw [hrepeated] at h
        cases h
  exact ⟨before, f, rest, report, hsplit, houtcome, haccounts⟩

/-- On a way through a folder that is missing no file can be read, while the place of every file holds its bytes.
Writing there reports neither that everything was written nor that everything was left alone: the folder on the way is
made with the first file, and then the others are found. -/
theorem write_through_missing_folder :
    (∀ f ∈ Sample.fragments, Path.IsBareName f.hint) ∧
    (write Sample.aside Sample.written Sample.fragments).outcome =
      .ok ⟨[Sample.aside / "Added.g.cs"], [Sample.aside / "Same.g.cs", Sample.aside / "Changed.g.cs"]⟩ ∧
    (∀ f ∈ Sample.fragments, Sample.written.read (Sample.aside / f.hint) = .error .missing) ∧
    ∀ f ∈ Sample.fragments, held Sample.aside Sample.written f = true :=
  ⟨Sample.bare, rfl, by decide, by decide⟩

end Writer

end SignalWiring
