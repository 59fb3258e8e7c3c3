/-
Sources in a tree that changes.

In a lawful tree the path of a source leads to the file that it was found at (`found_of_discover`). Changes neither add
sources nor take any away, as long as the target places have names of generated files: what is new in a folder yields no
source, and a file that is put in place of another keeps its name (`inEntries_setAt`).

- `discover_changes`: the sources that are discovered are the same after changes.
-/
import SignalWiring.Discovery
import SignalWiring.Proofs.Emission
import SignalWiring.Proofs.Files

namespace SignalWiring

open FileTree

/-! ## Bare names -/

namespace Path

variable {n : String}

theorem isPart_of_isBareName (h : IsBareName n) : IsPart n := ⟨h.1, h.2.1, h.2.2.2⟩

/-- a text without a slash does not start at the top -/
theorem startOf_of_not_mem {cs : List Char} (h : '/' ∉ cs) : startOf cs = .here := by
  cases cs with
  | nil => rfl
  | cons c rest =>
    have hc : c ≠ '/' := fun hc => h (hc ▸ List.mem_cons_self)
    unfold startOf
    split
    · rename_i heq
      exact absurd (List.cons.inj heq).1 hc
    · rename_i heq
      exact absurd (List.cons.inj heq).1 hc
    · rename_i heq
      exact absurd (List.cons.inj heq).1 hc
    · rfl

/-- a path with a bare name after it has one part more -/
theorem parts_div (p : Path) (h : IsPart n) : (p / n).parts = p.parts ++ [n] := by
  have hparts : (ofString n).parts = [n] := partsOf_of_isPart h
  have hstart : (ofString n).start = .here := startOf_of_not_mem h.2.2
  change (p.join (ofString n)).parts = _
  rw [join, hstart]
  exact congrArg (p.parts ++ ·) hparts

theorem name_div (p : Path) (h : IsPart n) : (p / n).name = n := by
  rw [name, parts_div p h, List.getLastD_concat]

/-- a bare name is the last name on the way -/
theorem placeOf_div (p : Path) (h : IsBareName n) : placeOf (p / n) = placeOf p ++ [n] := by
  rw [placeOf, parts_div p (isPart_of_isBareName h), resolve_append, resolve, if_neg h.2.2.1]
  rfl

end Path

namespace FileTree

/-- every folder has different names, and all of them can be names of files -/
def Lawful (t : FileTree) : Prop :=
  ∀ q es, t.at? q = some (.folder es) → (es.map Prod.fst).Nodup ∧ ∀ e ∈ es, Path.IsBareName e.1

/-- an entry of a folder is found by its name -/
theorem find?_of_mem {es : List (String × FileTree)} {e : String × FileTree} (h : (es.map Prod.fst).Nodup)
    (he : e ∈ es) : find? e.1 es = some e.2 := by
  induction es with
  | nil => cases he
  | cons x rest ih =>
    obtain ⟨hnew, hrest⟩ := List.nodup_cons.1 h
    rw [find?]
    rcases List.mem_cons.1 he with rfl | he
    · rw [if_pos rfl]
    · have hx : x.1 ≠ e.1 := fun hx => hnew (hx ▸ List.mem_map_of_mem he)
      rw [if_neg hx]
      exact ih hrest he

theorem mem_of_find? {es : List (String × FileTree)} {n : String} {sub : FileTree} (h : find? n es = some sub) :
    (n, sub) ∈ es := by
  induction es with
  | nil => cases h
  | cons e rest ih =>
    rw [find?] at h
    split at h
    · rename_i hn
      cases h
      exact hn ▸ List.mem_cons_self
    · exact List.mem_cons_of_mem _ (ih h)

/-- an entry of a folder stands at the place of its name -/
theorem at?_of_mem {t : FileTree} {q : FileTree.Place} {es : List (String × FileTree)} {e : String × FileTree}
    (hq : t.at? q = some (.folder es)) (hnodup : (es.map Prod.fst).Nodup) (he : e ∈ es) :
    t.at? (q ++ [e.1]) = some e.2 := by
  rw [at?_append, hq]
  change (find? e.1 es).bind _ = _
  rw [find?_of_mem hnodup he]
  rfl

theorem lawful_file (bytes : List UInt8) (readable : Bool) : (file bytes readable).Lawful := by
  intro q es h
  cases q with
  | nil => cases h
  | cons n q => cases h

/-- A folder of lawful trees with different bare names is lawful. -/
theorem lawful_folder {es : List (String × FileTree)} (hnodup : (es.map Prod.fst).Nodup)
    (h : ∀ e ∈ es, Path.IsBareName e.1 ∧ e.2.Lawful) : (folder es).Lawful := by
  intro q entries hq
  cases q with
  | nil =>
    cases hq
    exact ⟨hnodup, fun e he => (h e he).1⟩
  | cons n q =>
    rw [at?] at hq
    obtain ⟨sub, hsub, hat⟩ := Option.bind_eq_some_iff.1 hq
    exact (h _ (mem_of_find? hsub)).2 q entries hat

end FileTree

namespace Discovery

variable {t u x : FileTree} {marker name : String} {exclude : List String} {here p : Path} {q : FileTree.Place}

/-! ## Where sources are -/

/-- the path leads to a file with the name of a source -/
structure Found (t : FileTree) (marker : String) (p : Path) : Prop where
  file : ∃ bytes readable, t.get p = .ok (.file bytes readable)
  name : isSourceName marker p.name = true
  place : (placeOf p).getLast? = some p.name

mutual

theorem found_of_inEntry (hlawful : t.Lawful) {es : List (String × FileTree)} (sub : FileTree) (here : Path)
    (q : FileTree.Place) (name : String) (hhere : locate t [] here.parts = .ok q) (hq : t.at? q = some (.folder es))
    (hname : Path.IsBareName name) (hsub : t.at? (q ++ [name]) = some sub)
    (hp : p ∈ inEntry exclude marker here name sub) : Found t marker p := by
  have hlocate : locate t [] (here / name).parts = .ok (q ++ [name]) := by
    rw [Path.parts_div here (Path.isPart_of_isBareName hname), locate_append, hhere]
    exact locate_name hq hname.2.2.1
  match sub with
  | .file b readable =>
    rw [inEntry] at hp
    split at hp
    · rename_i hsource
      cases List.mem_singleton.1 hp
      refine ⟨⟨b, readable, get_eq_ok.2 ⟨_, hlocate, hsub⟩⟩, ?_, ?_⟩
      · rw [Path.name_div here (Path.isPart_of_isBareName hname)]
        exact hsource
      · rw [Path.placeOf_div here hname, List.getLast?_concat, Path.name_div here (Path.isPart_of_isBareName hname)]
    · cases hp
  | .folder entries =>
    rw [inEntry] at hp
    split at hp
    · cases hp
    · obtain ⟨hnodup, hbare⟩ := hlawful _ _ hsub
      exact found_of_inEntries hlawful entries (here / name) (q ++ [name]) hlocate hsub
        (fun e he => ⟨hbare e he, at?_of_mem hsub hnodup he⟩) hp

theorem found_of_inEntries (hlawful : t.Lawful) {es : List (String × FileTree)} (entries : List (String × FileTree))
    (here : Path) (q : FileTree.Place) (hhere : locate t [] here.parts = .ok q) (hq : t.at? q = some (.folder es))
    (hentries : ∀ e ∈ entries, Path.IsBareName e.1 ∧ t.at? (q ++ [e.1]) = some e.2)
    (hp : p ∈ inEntries exclude marker here entries) : Found t marker p := by
  match entries with
  | [] => cases hp
  | (name, sub) :: rest =>
    rw [inEntries] at hp
    obtain ⟨hname, hsub⟩ := hentries (name, sub) List.mem_cons_self
    rcases List.mem_append.1 hp with hp | hp
    · exact found_of_inEntry hlawful sub here q name hhere hq hname hsub hp
    · exact found_of_inEntries hlawful rest here q hhere hq (fun e he => hentries e (List.mem_cons_of_mem _ he)) hp

end

/-- sources are discovered below a folder -/
theorem exists_folder_of_discover {root : Path} {paths : List Path} (h : discover t root exclude marker = .ok paths) :
    ∃ es, t.get root = .ok (.folder es) := by
  rw [discover] at h
  split at h
  · rename_i es hroot
    exact ⟨es, hroot⟩
  · cases h

/-- **Where sources are.** Every path that is discovered leads to a file with the name of a source. -/
theorem found_of_discover (hlawful : t.Lawful) {root : Path} {paths : List Path}
    (h : discover t root exclude marker = .ok paths) : ∀ p ∈ paths, Found t marker p := by
  intro p hp
  rw [discover] at h
  split at h
  · rename_i es hroot
    cases h
    obtain ⟨q, hlocate, hq⟩ := get_eq_ok.1 hroot
    obtain ⟨hnodup, hbare⟩ := hlawful _ _ hq
    exact found_of_inEntries hlawful es root q hlocate hq (fun e he => ⟨hbare e he, at?_of_mem hq hnodup he⟩)
      ((List.mergeSort_perm _ _).mem_iff.1 hp)
  · cases h

/-! ## Sources after a change -/

/-- all places have names of generated files -/
def Generated (marker : String) (targets : List FileTree.Place) : Prop :=
  ∀ q ∈ targets, ∀ name, q.getLast? = some name → isGeneratedName marker name = true

/-- an entry that yields what stood under its name leaves the sources of its folder as they are -/
theorem inEntries_putNamed {es : List (String × FileTree)}
    (h : inEntry exclude marker here name x = (find? name es).elim [] (inEntry exclude marker here name)) :
    inEntries exclude marker here (putNamed name x es) = inEntries exclude marker here es := by
  induction es with
  | nil =>
    change inEntry exclude marker here name x ++ [] = []
    rw [h]
    rfl
  | cons e rest ih =>
    obtain ⟨n, sub⟩ := e
    rw [putNamed]
    rw [find?] at h
    by_cases hn : n = name
    · subst hn
      rw [if_pos rfl] at h
      rw [if_pos rfl, inEntries, inEntries, h]
      rfl
    · rw [if_neg hn] at h
      rw [if_neg hn, inEntries, inEntries, ih h]

/-- **Setting a place.** What yields the sources that were there leaves the sources of every folder above as they are. -/
theorem inEntries_setAt {es es' : List (String × FileTree)} (hq : q ≠ []) (hset : (folder es).setAt q x = folder es')
    (h : ∀ here name, q.getLast? = some name →
      inEntry exclude marker here name x = ((folder es).at? q).elim [] (inEntry exclude marker here name)) :
    inEntries exclude marker here es' = inEntries exclude marker here es := by
  induction q generalizing es es' here with
  | nil => exact absurd rfl hq
  | cons n rest ih =>
    cases rest with
    | nil =>
      cases hset
      refine inEntries_putNamed ((h here n rfl).trans ?_)
      rw [at?]
      cases find? n es <;> rfl
    | cons k rest =>
      cases hsub : find? n es with
      | none =>
        rw [setAt_nowhere x (List.cons_ne_nil k rest) hsub] at hset
        cases hset
        rfl
      | some sub =>
        rw [setAt_below x (List.cons_ne_nil k rest) hsub] at hset
        cases hset
        refine inEntries_putNamed ?_
        rw [hsub]
        change _ = inEntry exclude marker here n sub
        cases sub with
        | file b readable => rw [setAt_file b readable x (List.cons_ne_nil k rest)]
        | folder entries =>
          obtain ⟨entries', hentries⟩ := exists_setAt_folder entries x (List.cons_ne_nil k rest)
          rw [hentries, inEntry, inEntry]
          -- an excluded folder yields nothing in either tree
          refine congrArg (ite _ []) (ih (List.cons_ne_nil k rest) hentries fun below name hname => ?_)
          rw [h below name (by rw [List.getLast?_cons_cons]; exact hname), at?, hsub]
          rfl

/-- a file under the name of a generated file yields no source -/
theorem inEntry_of_generated (here : Path) (bytes : List UInt8) (readable : Bool)
    (h : isGeneratedName marker name = true) : inEntry exclude marker here name (.file bytes readable) = [] := by
  rw [inEntry, isSourceName, h, Bool.not_true, Bool.and_false]
  rfl

/-- What a change sets is no folder before, and yields what it yielded. -/
theorem exists_setAt_of_change (exclude : List String) {targets : List FileTree.Place} (hchange : Change targets t u)
    (htargets : Generated marker targets) :
    ∃ q x, u = t.setAt q x ∧ q ≠ [] ∧ (∀ es, t.at? q ≠ some (.folder es)) ∧
      ∀ here name, q.getLast? = some name →
        inEntry exclude marker here name x = (t.at? q).elim [] (inEntry exclude marker here name) := by
  cases hchange with
  | @made q hnone =>
    refine ⟨q, empty, rfl, fun hq => ?_, fun es h => ?_, fun here name _ => ?_⟩
    · rw [hq] at hnone
      cases hnone
    · rw [hnone] at h
      cases h
    · rw [hnone, empty, inEntry]
      split <;> rfl
  | @wrote q bytes htarget hq hold =>
    refine ⟨q, .file bytes true, rfl, hq, hold, fun here name hname => ?_⟩
    have hgenerated := htargets q htarget name hname
    rw [inEntry_of_generated here bytes true hgenerated]
    cases hfound : t.at? q with
    | none => rfl
    | some found =>
      cases found with
      | folder es => exact absurd hfound (hold es)
      | file b readable =>
        change [] = inEntry exclude marker here name (.file b readable)
        rw [inEntry_of_generated here b readable hgenerated]

/-- One change leaves the sources as they are, if files are put under names of generated files alone. -/
theorem discover_change {targets : List FileTree.Place} {root : Path} {paths : List Path} (hchange : Change targets t u)
    (htargets : Generated marker targets)
    (h : discover t root exclude marker = .ok paths) : discover u root exclude marker = .ok paths := by
  rw [discover] at h
  split at h
  · rename_i es hroot
    obtain ⟨top, hlocate, htop⟩ := get_eq_ok.1 hroot
    have hlocate' := hchange.grows.locate hlocate
    obtain ⟨q, x, rfl, hq, hold, hyield⟩ := exists_setAt_of_change exclude hchange htargets
    -- the folder of the root in the tree after the change
    obtain ⟨es', hes', hsame⟩ : ∃ es', (t.setAt q x).at? top = some (.folder es') ∧
        inEntries exclude marker root es' = inEntries exclude marker root es := by
      rcases at?_setAt t x q top with hsame | ⟨r, hr, rfl, habove⟩ | ⟨r, rfl, -⟩
      · exact ⟨es, hsame.trans htop, rfl⟩
      · obtain ⟨es', hes'⟩ := exists_setAt_folder es x hr
        rw [htop, Option.map_some, hes'] at habove
        refine ⟨es', habove, inEntries_setAt hr hes' fun here name hname => ?_⟩
        rw [hyield here name (by rw [List.getLast?_append, hname]; rfl), at?_append, htop]
        rfl
      · by_cases hr : r = []
        · rw [hr, List.append_nil] at htop
          exact absurd htop (hold es)
        · rw [at?_append_of_not_folder hold hr] at htop
          cases htop
    rw [discover, get_eq_ok.2 ⟨top, hlocate', hes'⟩]
    simp only [hsame]
    exact h
  · cases h

/-- **Sources.** They are the same after changes that put files under names of generated files alone. -/
theorem discover_changes {targets : List FileTree.Place} {root : Path} {paths : List Path}
    (hchanges : Changes targets t u) (htargets : Generated marker targets)
    (h : discover t root exclude marker = .ok paths) : discover u root exclude marker = .ok paths := by
  induction hchanges with
  | refl => exact h
  | tail _ hchange ih => exact discover_change hchange htargets ih

/-! ## Names of generated files -/

/-- the output name of a source: its stem, the marker and the extension of sources -/
theorem hintName_of_source {artifact hint : String} (hpart : Path.IsPart artifact)
    (hsource : isSourceName marker artifact = true) (h : hintName artifact marker = .ok hint) :
    hint = (Path.splitName artifact).1 ++ (marker ++ sourceSuffix) := by
  have hsuffix : (Path.splitName artifact).2 = sourceSuffix := by
    rw [isSourceName, Bool.and_eq_true, beq_iff_eq] at hsource
    exact hsource.1
  have hname : (Path.ofString artifact).name = artifact := Path.name_ofString hpart
  rw [hintName, if_neg hpart.1] at h
  simp only [Path.suffix, Path.stem, hname, hsuffix] at h
  rw [if_neg (by decide)] at h
  rw [← Except.ok.inj h, String.append_assoc]

theorem isGeneratedName_append (stem marker : String) :
    isGeneratedName marker (stem ++ (marker ++ sourceSuffix)) = true := by
  rw [isGeneratedName, List.isSuffixOf_iff_suffix, String.toList_append (s := stem)]
  exact List.suffix_append _ _

/-- the name of a generated file ends as a source does -/
theorem getLast?_of_generated (h : isGeneratedName marker name = true) : name.toList.getLast? = some 's' := by
  rw [isGeneratedName, List.isSuffixOf_iff_suffix] at h
  obtain ⟨front, hfront⟩ := h
  have hlast : sourceSuffix.toList = ['.', 'c'] ++ ['s'] := by decide
  rw [← hfront, String.toList_append, hlast, ← List.append_assoc, ← List.append_assoc, List.getLast?_concat]

/-- **Output names.** The output name of a source is that of a generated file, and a bare name. -/
theorem hint_of_source {artifact hint : String} (hpart : Path.IsPart artifact) (hmarker : '/' ∉ marker.toList)
    (hsource : isSourceName marker artifact = true) (h : hintName artifact marker = .ok hint) :
    Path.IsBareName hint ∧ isGeneratedName marker hint = true := by
  have hhint := hintName_of_source hpart hsource h
  have hgenerated : isGeneratedName marker hint = true := hhint ▸ isGeneratedName_append _ marker
  have hlast := getLast?_of_generated hgenerated
  refine ⟨⟨fun hempty => ?_, fun hdot => ?_, fun hup => ?_, fun hslash => ?_⟩, hgenerated⟩
  · rw [hempty] at hlast
    cases hlast
  · rw [hdot] at hlast
    cases hlast
  · rw [hup] at hlast
    cases hlast
  · -- a slash is in none of the three parts
    have hstem : '/' ∉ (Path.splitName artifact).1.toList := fun hmem => by
      refine hpart.2.2 ?_
      rw [← Path.splitName_append artifact, String.toList_append]
      exact List.mem_append_left _ hmem
    rw [hhint, String.toList_append, String.toList_append] at hslash
    rcases List.mem_append.1 hslash with hmem | hmem
    · exact hstem hmem
    · rcases List.mem_append.1 hmem with hmem | hmem
      · exact hmarker hmem
      · exact absurd hmem (by decide)

/-- What a source is read as does not change. -/
theorem Found.get {targets : List FileTree.Place} (h : Found t marker p) (hgrows : Grows targets t u)
    (htargets : Generated marker targets) :
    u.get p = t.get p := by
  obtain ⟨bytes, readable, hget⟩ := h.file
  have hout : placeOf p ∉ targets := fun hmem => by
    have hsource := h.name
    rw [isSourceName, htargets _ hmem _ h.place, Bool.not_true, Bool.and_false] at hsource
    cases hsource
  rw [hget, hgrows.get_file hout hget]

end Discovery

end SignalWiring
