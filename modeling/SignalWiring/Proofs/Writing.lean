/-
What writing does.

A fragment is visited: its file is left alone when it holds the bytes, and is put there else (`Visit`). A writing is one
visit after the other (`writeFrom_cons_of_ok`), up to an output name that was there before (`writeFrom_of_seen`).

Writing that comes to its end is made of changes at the places of its output files (`writeFrom_changes`), and every output
file then holds the bytes of its fragment. Writing the same fragments once more finds all of them unchanged.

- `write_again`: a second writing reports nothing as written, and leaves the tree as it is.
-/
import SignalWiring.Proofs.Sources
import SignalWiring.Writer

namespace SignalWiring.Writer

open FileTree

section Writing

variable {out target : Path} {files after : FileTree} {bytes : List UInt8} {fragments rest : List Fragment} {f : Fragment}
  {seen : List String} {targets : List FileTree.Place} {report : WriteReport} {fault : Fault} {kept : Bool}

/-! ## One file -/

/-- a file holds the bytes if they can be read there -/
theorem holds_eq_true : holds files target bytes = .ok true ↔ files.get target = .ok (.file bytes true) := by
  rw [holds, isFile, FileTree.read]
  cases files.get target with
  | error e => simp
  | ok found =>
    cases found with
    | folder es => simp
    | file b readable => cases readable <;> simp

/-- **One file.** It is put under its name by changes, and holds the bytes then. -/
theorem put_changes {n : String} (hn : Path.IsBareName n) (htarget : placeOf (out / n) ∈ targets)
    (h : put files out (out / n) bytes = (after, .ok ())) :
    Changes targets files after ∧ after.get (out / n) = .ok (.file bytes true) := by
  have hfolders := makeFolders_changes targets files out
  rw [put] at h
  rcases hmade : files.makeFolders out with ⟨made, cause | _⟩
  · rw [hmade] at h
    cases h
  · rw [hmade] at h hfolders
    cases hwrite : made.write (out / n) bytes with
    | error cause =>
      simp only [hwrite] at h
      cases h
    | ok u =>
      simp only [hwrite] at h
      cases h
      have hparts := Path.parts_div out (Path.isPart_of_isBareName hn)
      obtain ⟨hchanges, hget⟩ := write_name hparts hn.2.2.1 htarget hwrite
      exact ⟨hfolders.trans hchanges, hget⟩

/-! ## Step by step -/

/-- what a visit to the file of one fragment comes to: the tree after it, and whether the file was left alone -/
inductive Visit (out : Path) (files : FileTree) (f : Fragment) : FileTree → Except Fault Bool → Prop where
  /-- the file is there and cannot be read -/
  | unreadable (fault : Fault) (found : holds files (out / f.hint) (Text.Utf8.encode f.source) = .error fault) :
      Visit out files f files (.error fault)
  /-- the file holds the bytes -/
  | kept (found : holds files (out / f.hint) (Text.Utf8.encode f.source) = .ok true) : Visit out files f files (.ok true)
  /-- the file does not hold the bytes, and cannot be put there -/
  | stuck (after : FileTree) (fault : Fault)
      (found : holds files (out / f.hint) (Text.Utf8.encode f.source) = .ok false)
      (tried : put files out (out / f.hint) (Text.Utf8.encode f.source) = (after, .error fault)) :
      Visit out files f after (.error fault)
  /-- the file does not hold the bytes, and is put there -/
  | written (after : FileTree) (found : holds files (out / f.hint) (Text.Utf8.encode f.source) = .ok false)
      (done : put files out (out / f.hint) (Text.Utf8.encode f.source) = (after, .ok ())) :
      Visit out files f after (.ok false)

/-- a visit before a writing -/
def noted (kept : Bool) (target : Path) (f : Fragment) (w : Writing) : Writing where
  files := w.files
  outcome := w.outcome.map fun r =>
    if kept then { r with unchanged := target :: r.unchanged } else { r with written := target :: r.written }
  records := if kept then w.records else writtenRecord target f :: w.records

/-- an output name that was there before stops a writing -/
theorem writeFrom_of_seen (h : f.hint ∈ seen) :
    writeFrom out seen files (f :: rest) = ⟨files, .error (.invalid (.repeatedOutput f.hint)), []⟩ := by
  rw [writeFrom, if_pos (List.contains_iff_mem.2 h)]

/-- every fragment is visited -/
theorem exists_visit (out : Path) (files : FileTree) (f : Fragment) : ∃ after done, Visit out files f after done := by
  cases hholds : holds files (out / f.hint) (Text.Utf8.encode f.source) with
  | error fault => exact ⟨_, _, .unreadable fault hholds⟩
  | ok held =>
    cases held with
    | true => exact ⟨_, _, .kept hholds⟩
    | false =>
      rcases hput : put files out (out / f.hint) (Text.Utf8.encode f.source) with ⟨after, fault | done⟩
      · exact ⟨_, _, .stuck after fault hholds hput⟩
      · exact ⟨_, _, .written after hholds hput⟩

/-- a visit that fails stops a writing -/
theorem writeFrom_cons_of_error (hnew : f.hint ∉ seen) (h : Visit out files f after (.error fault)) :
    writeFrom out seen files (f :: rest) = ⟨after, .error fault, []⟩ := by
  rw [writeFrom, if_neg (mt List.contains_iff_mem.1 hnew)]
  cases h with
  | unreadable _ hholds => simp only [hholds]
  | stuck _ _ hholds hput => simp only [hholds, hput]

/-- and after any other visit it goes on -/
theorem writeFrom_cons_of_ok (hnew : f.hint ∉ seen) (h : Visit out files f after (.ok kept)) :
    writeFrom out seen files (f :: rest) = noted kept (out / f.hint) f (writeFrom out (f.hint :: seen) after rest) := by
  rw [writeFrom, if_neg (mt List.contains_iff_mem.1 hnew)]
  cases h with
  | kept hholds =>
    simp only [hholds]
    rfl
  | written _ hholds hput =>
    simp only [hholds, hput]
    rfl

/-- a file that is there and cannot be read is a fault of the file system -/
theorem fault_of_holds {target : Path} {bytes : List UInt8} (h : holds files target bytes = .error fault) :
    ∃ cause path, fault = .system cause path := by
  rw [holds] at h
  split at h
  · split at h
    · cases h
    · cases h
      exact ⟨_, _, rfl⟩
  · cases h

/-- A file that cannot be put under its name is one as well. Before that folders may have been made. -/
theorem put_error {target : Path} {bytes : List UInt8} (targets : List FileTree.Place)
    (h : put files out target bytes = (after, .error fault)) :
    (∃ cause path, fault = .system cause path) ∧ Changes targets files after := by
  have hfolders := makeFolders_changes targets files out
  rw [put] at h
  rcases hmade : files.makeFolders out with ⟨made, cause | _⟩
  · rw [hmade] at h hfolders
    cases h
    exact ⟨⟨_, _, rfl⟩, hfolders⟩
  · rw [hmade] at h hfolders
    cases hwrite : made.write target bytes with
    | error cause =>
      simp only [hwrite] at h
      cases h
      exact ⟨⟨_, _, rfl⟩, hfolders⟩
    | ok u =>
      simp only [hwrite] at h
      cases h

/-- a visit fails when the file system refuses -/
theorem Visit.refused (h : Visit out files f after (.error fault)) : ∃ cause path, fault = .system cause path := by
  cases h with
  | unreadable _ hholds => exact fault_of_holds hholds
  | stuck _ _ _ hput => exact (put_error [] hput).1

/-- Whatever comes of a visit, it changes the tree at the place of its file alone. -/
theorem Visit.changes {done : Except Fault Bool} (h : Visit out files f after done) (hf : Path.IsBareName f.hint)
    (htarget : placeOf (out / f.hint) ∈ targets) : Changes targets files after := by
  cases h with
  | unreadable | kept => exact .refl
  | stuck _ _ _ hput => exact (put_error targets hput).2
  | written _ _ hput => exact (put_changes hf htarget hput).1

/-- After a visit that does not fail the file holds the bytes. -/
theorem Visit.get (h : Visit out files f after (.ok kept)) (hf : Path.IsBareName f.hint) :
    after.get (out / f.hint) = .ok (.file (Text.Utf8.encode f.source) true) := by
  cases h with
  | kept hholds => exact holds_eq_true.1 hholds
  | written _ _ hput => exact (put_changes hf (List.mem_singleton_self _) hput).2

/-- **One step.** A writing that comes to its end visits the first file and goes on with the others. -/
theorem writeFrom_cons (h : (writeFrom out seen files (f :: rest)).outcome = .ok report) :
    f.hint ∉ seen ∧ ∃ after kept r, Visit out files f after (.ok kept) ∧
      (writeFrom out (f.hint :: seen) after rest).outcome = .ok r ∧
      (writeFrom out seen files (f :: rest)).files = (writeFrom out (f.hint :: seen) after rest).files ∧
      report = if kept then { r with unchanged := out / f.hint :: r.unchanged }
        else { r with written := out / f.hint :: r.written } := by
  by_cases hseen : f.hint ∈ seen
  · rw [writeFrom_of_seen hseen] at h
    cases h
  · obtain ⟨after, done, hvisit⟩ := exists_visit out files f
    cases done with
    | error fault =>
      rw [writeFrom_cons_of_error hseen hvisit] at h
      cases h
    | ok kept =>
      rw [writeFrom_cons_of_ok hseen hvisit] at h ⊢
      obtain ⟨r, hr, hreport⟩ := map_eq_ok h
      exact ⟨hseen, after, kept, r, hvisit, hr, rfl, hreport.symm⟩

/-! ## All files -/

def places (out : Path) (fragments : List Fragment) : List FileTree.Place :=
  fragments.map fun f => placeOf (out / f.hint)

/-- the output file of every fragment holds its bytes -/
def Settled (out : Path) (fragments : List Fragment) (files : FileTree) : Prop :=
  ∀ f ∈ fragments, files.get (out / f.hint) = .ok (.file (Text.Utf8.encode f.source) true)

/-- another name has another place -/
theorem place_not_mem (hbare : ∀ g ∈ fragments, Path.IsBareName g.hint) (hf : Path.IsBareName f.hint)
    (hnew : f.hint ∉ fragments.map Fragment.hint) : placeOf (out / f.hint) ∉ places out fragments := by
  intro h
  obtain ⟨g, hg, hplace⟩ := List.mem_map.1 h
  rw [Path.placeOf_div out hf, Path.placeOf_div out (hbare g hg)] at hplace
  have hname : g.hint = f.hint := by simpa using hplace
  exact hnew (List.mem_map.2 ⟨g, hg, hname⟩)

/-- **Writing.** If it comes to its end, no output name occurred twice or before, the tree was changed at the places of
the output files alone, and every output file holds its bytes. -/
theorem writeFrom_changes (hbare : ∀ f ∈ fragments, Path.IsBareName f.hint)
    (h : (writeFrom out seen files fragments).outcome = .ok report) :
    (fragments.map Fragment.hint).Nodup ∧ (∀ f ∈ fragments, f.hint ∉ seen) ∧
      Changes (places out fragments) files (writeFrom out seen files fragments).files ∧
      Settled out fragments (writeFrom out seen files fragments).files := by
  induction fragments generalizing seen files report with
  | nil => exact ⟨List.nodup_nil, fun f hf => (nomatch hf), .refl, fun f hf => (nomatch hf)⟩
  | cons f rest ih =>
    have hf := hbare f List.mem_cons_self
    have hrest : ∀ g ∈ rest, Path.IsBareName g.hint := fun g hg => hbare g (List.mem_cons_of_mem _ hg)
    have hhere : placeOf (out / f.hint) ∈ places out (f :: rest) := List.mem_cons_self
    have hsub : ∀ q ∈ places out rest, q ∈ places out (f :: rest) := fun q hq => List.mem_cons_of_mem _ hq
    obtain ⟨hfresh, after, kept, r, hvisit, houtcome, hfiles, -⟩ := writeFrom_cons h
    obtain ⟨hnodup, hseen, hchanges, hsettled⟩ := ih hrest houtcome
    have hnew : f.hint ∉ rest.map Fragment.hint := fun hmem => by
      obtain ⟨g, hg, hgf⟩ := List.mem_map.1 hmem
      exact hseen g hg (hgf ▸ List.mem_cons_self)
    rw [hfiles]
    refine ⟨List.nodup_cons.2 ⟨hnew, hnodup⟩, fun g hg => ?_, (hvisit.changes hf hhere).trans (hchanges.mono hsub), fun g hg => ?_⟩
    · rcases List.mem_cons.1 hg with rfl | hg
      · exact hfresh
      · exact fun hmem => hseen g hg (List.mem_cons_of_mem _ hmem)
    · rcases List.mem_cons.1 hg with rfl | hg
      · exact hchanges.grows.get_file (place_not_mem hrest hf hnew) (hvisit.get hf)
      · exact hsettled g hg

/-- Where every output file holds its bytes, nothing is written. -/
theorem writeFrom_settled (hnodup : (fragments.map Fragment.hint).Nodup) (hseen : ∀ f ∈ fragments, f.hint ∉ seen)
    (h : Settled out fragments files) :
    writeFrom out seen files fragments = ⟨files, .ok { unchanged := fragments.map fun f => out / f.hint }, []⟩ := by
  induction fragments generalizing seen with
  | nil => rfl
  | cons f rest ih =>
    obtain ⟨hnew, hrest⟩ := List.nodup_cons.1 hnodup
    have hvisit : Visit out files f files (.ok true) := .kept (holds_eq_true.2 (h f List.mem_cons_self))
    have hothers : ∀ g ∈ rest, g.hint ∉ f.hint :: seen := by
      intro g hg hmem
      rcases List.mem_cons.1 hmem with hgf | hmem
      · exact hnew (hgf ▸ List.mem_map_of_mem hg)
      · exact hseen g (List.mem_cons_of_mem _ hg) hmem
    rw [writeFrom_cons_of_ok (hseen f List.mem_cons_self) hvisit,
      ih hrest hothers fun g hg => h g (List.mem_cons_of_mem _ hg)]
    rfl

/-- **Writing again.** A writing that comes to its end is made of changes at the places of the output files, and after it
the same writing finds every file unchanged. -/
theorem write_again (hbare : ∀ f ∈ fragments, Path.IsBareName f.hint)
    (h : (write out files fragments).outcome = .ok report) :
    Changes (places out fragments) files (write out files fragments).files ∧
      write out (write out files fragments).files fragments =
        ⟨(write out files fragments).files, .ok { unchanged := fragments.map fun f => out / f.hint }, []⟩ := by
  obtain ⟨hnodup, hseen, hchanges, hsettled⟩ := writeFrom_changes hbare h
  exact ⟨hchanges, writeFrom_settled hnodup hseen hsettled⟩

end Writing

end SignalWiring.Writer
