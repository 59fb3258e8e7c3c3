/-
Which sources are discovered.

A discovery goes down through the folders below the root and sorts what it has found. In a lawful tree every file has one
place, so nothing is found twice, and sorted paths are in strictly increasing order. That order leaves no choice: the
sources alone decide what the result is, and not the order in which the folders list their entries.

- `isSourceName_iff`: which names are names of sources.
- `mem_inEntries`, `nodup_inEntries`: what is found below a folder, and that it is found once.
- `Path.le_iff`, `Lists.of_sorted`: sorted paths are in the order of their parts.
- `Lists.unique`: the sources decide the result; `Relisted.isSource`: the order of listings does not decide the sources.
- `discover_exact`: what is discovered below a root.
-/
import SignalWiring.Proofs.ChangeDetection
import SignalWiring.Proofs.OutputNames

namespace SignalWiring

open FileTree

/-! ## The order of paths -/

namespace Path

variable {p q root : Path} {n : String} {names : List String}

/-- a path is its start and its parts -/
theorem ext (hstart : p.start = q.start) (hparts : p.parts = q.parts) : p = q := by
  cases p
  cases q
  cases hstart
  cases hparts
  rfl

theorem keyLe_iff {a b : List String} : keyLe a b = true ↔ a ≤ b := by
  rw [← not_lt]
  induction a generalizing b with
  | nil => exact iff_of_true rfl (List.not_lt_nil b)
  | cons x xs ih =>
    cases b with
    | nil => exact iff_of_false Bool.false_ne_true (not_not.2 (List.nil_lt_cons x xs))
    | cons y ys =>
      rw [keyLe, Bool.or_eq_true, Bool.and_eq_true, decide_eq_true_eq, decide_eq_true_eq, ih, List.cons_lt_cons_iff]
      rcases lt_trichotomy x y with hlt | rfl | hgt
      · simp [hlt, hlt.not_gt, hlt.ne']
      · simp
      · simp [hgt, hgt.not_gt, hgt.ne']

/-- paths that start alike are compared by their parts -/
theorem le_iff (h : p.start = q.start) : p.le q = true ↔ p.parts ≤ q.parts := by
  rw [le, keyLe_iff, key, key, h]
  cases q.start with
  | here => rfl
  | top | doubleTop => rw [← not_lt, ← not_lt, List.cons_lt_cons_self]

theorem pairwise_sorted (paths : List Path) : (paths.mergeSort le).Pairwise fun p q => p.le q = true := by
  refine List.pairwise_mergeSort (fun p q r hpq hqr => ?_) (fun p q => ?_) paths
  · exact keyLe_iff.2 (le_trans (keyLe_iff.1 hpq) (keyLe_iff.1 hqr))
  · rw [Bool.or_eq_true]
    exact (le_total p.key q.key).imp keyLe_iff.2 keyLe_iff.2

/-! ## Paths below a root -/

/-- from the root down, name by name -/
def below (root : Path) (names : List String) : Path := names.foldl (fun p n => p / n) root

theorem start_div (p : Path) (h : IsPart n) : (p / n).start = p.start := by
  have hstart : (ofString n).start = .here := startOf_of_not_mem h.2.2
  change (p.join (ofString n)).start = _
  rw [join, hstart]

theorem start_below (root : Path) (h : ∀ n ∈ names, IsPart n) : (root.below names).start = root.start := by
  induction names generalizing root with
  | nil => rfl
  | cons n rest ih =>
    rw [← start_div root (h n List.mem_cons_self)]
    exact ih (root / n) fun m hm => h m (List.mem_cons_of_mem _ hm)

theorem parts_below (root : Path) (h : ∀ n ∈ names, IsPart n) : (root.below names).parts = root.parts ++ names := by
  induction names generalizing root with
  | nil => exact (List.append_nil root.parts).symm
  | cons n rest ih =>
    rw [List.append_cons, ← parts_div root (h n List.mem_cons_self)]
    exact ih (root / n) fun m hm => h m (List.mem_cons_of_mem _ hm)

end Path

/-! ## Trees by their structure -/

namespace FileTree

variable {t u : FileTree} {es : List (String × FileTree)} {e : String × FileTree} {q names : List String}

/-- induction over a tree: from the entries of a folder to the folder -/
@[elab_as_elim]
theorem induct {motive : FileTree → Prop} (file : ∀ bytes readable, motive (file bytes readable))
    (folder : ∀ es, (∀ e ∈ es, motive e.2) → motive (folder es)) : ∀ t, motive t
  | .file bytes readable => file bytes readable
  | .folder es => folder es fun e he =>
    have : sizeOf e < sizeOf es := List.sizeOf_lt_of_mem he
    have : sizeOf e.2 < sizeOf e := by
      cases e
      simp
    induct file folder e.2

/-- the files in a folder with one entry -/
theorem at?_entry {n : String} {bytes : List UInt8} {readable : Bool} :
    (folder [(n, t)]).at? names = some (.file bytes readable) ↔
      ∃ rest, names = n :: rest ∧ t.at? rest = some (.file bytes readable) := by
  constructor
  · intro h
    cases names with
    | nil => cases h
    | cons m rest =>
      obtain ⟨sub, hsub, hrest⟩ := Option.bind_eq_some_iff.1 h
      rcases List.mem_singleton.1 (mem_of_find? hsub) with ⟨rfl, rfl⟩
      exact ⟨rest, rfl, hrest⟩
  · rintro ⟨rest, rfl, hrest⟩
    rw [at?, find?, if_pos rfl]
    exact hrest

/-- the files in a folder are those in its entries -/
theorem at?_entries {bytes : List UInt8} {readable : Bool} (h : (es.map Prod.fst).Nodup) :
    (folder es).at? names = some (.file bytes readable) ↔
      ∃ e ∈ es, (folder [e]).at? names = some (.file bytes readable) := by
  constructor
  · intro hfile
    cases names with
    | nil => cases hfile
    | cons n rest =>
      obtain ⟨sub, hsub, hrest⟩ := Option.bind_eq_some_iff.1 hfile
      exact ⟨(n, sub), mem_of_find? hsub, at?_entry.2 ⟨rest, rfl, hrest⟩⟩
  · rintro ⟨e, he, hfile⟩
    obtain ⟨rest, rfl, hrest⟩ := at?_entry.1 hfile
    rw [at?, find?_of_mem h he]
    exact hrest

/-- what stands in a lawful tree is lawful -/
theorem Lawful.of_at? (h : t.Lawful) (hu : t.at? q = some u) : u.Lawful := by
  intro r es hr
  refine h (q ++ r) es ?_
  rw [at?_append, hu]
  exact hr

theorem Lawful.nodup (h : (folder es).Lawful) : (es.map Prod.fst).Nodup := (h [] es rfl).1

theorem Lawful.of_mem (h : (folder es).Lawful) (he : e ∈ es) : e.2.Lawful :=
  h.of_at? (at?_of_mem (q := []) rfl h.nodup he)

/-- the names on the way to what stands in a lawful tree are bare -/
theorem Lawful.bare (h : t.Lawful) (hu : t.at? names = some u) : ∀ n ∈ names, Path.IsBareName n := by
  induction names generalizing t with
  | nil => exact fun n hn => nomatch hn
  | cons n rest ih =>
    cases t with
    | file bytes readable => cases hu
    | folder es =>
      obtain ⟨sub, hsub, hrest⟩ := Option.bind_eq_some_iff.1 hu
      have he := mem_of_find? hsub
      exact List.forall_mem_cons.2 ⟨(h [] es rfl).2 _ he, ih (h.of_mem he) hrest⟩

end FileTree

namespace Discovery

variable {t u : FileTree} {es : List (String × FileTree)} {exclude : List String} {marker name : String}
  {here root p : Path} {names : List String} {paths : List Path}

/-! ## Names of sources -/

theorem isGeneratedName_iff : isGeneratedName marker name = true ↔ ∃ stem, name = stem ++ (marker ++ ".cs") := by
  constructor
  · intro h
    rw [isGeneratedName, List.isSuffixOf_iff_suffix] at h
    obtain ⟨stem, hstem⟩ := h
    refine ⟨String.ofList stem, String.toList_injective ?_⟩
    rw [String.toList_append, String.toList_ofList]
    exact hstem.symm
  · rintro ⟨stem, rfl⟩
    exact isGeneratedName_append stem marker

/-- the extension of a name is that of sources when it stands behind something -/
theorem hasSourceSuffix_iff : (Path.splitName name).2 = ".cs" ↔ ∃ stem, stem ≠ "" ∧ name = stem ++ ".cs" := by
  have hsuffix : ".cs".toList = '.' :: ['c', 's'] := by decide
  constructor
  · intro h
    by_cases hext : ∃ stem ext, Path.Extended name stem ext
    · obtain ⟨stem, ext, hext⟩ := hext
      rw [Path.splitName_of_extended hext] at h
      refine ⟨String.ofList stem, fun hempty => hext.stem_ne ?_, ?_⟩
      · rw [← String.toList_ofList (l := stem), hempty]
        rfl
      · rw [← h, ← String.ofList_append, ← hext.eq, String.ofList_toList]
    · rw [Path.splitName_of_plain fun stem ext hstem => hext ⟨stem, ext, hstem⟩] at h
      have hnone : "" ≠ ".cs" := by decide
      exact absurd h hnone
  · rintro ⟨stem, hstem, rfl⟩
    have hext : Path.Extended (stem ++ ".cs") stem.toList ['c', 's'] := by
      refine ⟨?_, ?_, by decide, by decide⟩
      · rw [String.toList_append, hsuffix]
      · rwa [ne_eq, String.toList_eq_nil_iff]
    rw [Path.splitName_of_extended hext]

/-- **Names.** A name is that of a source when it has the extension of sources, and does not end as generated files do. -/
theorem isSourceName_iff : isSourceName marker name = true ↔
    (∃ stem, stem ≠ "" ∧ name = stem ++ ".cs") ∧ ∀ stem, name ≠ stem ++ (marker ++ ".cs") := by
  rw [isSourceName, Bool.and_eq_true, Bool.not_eq_true', ← Bool.not_eq_true, isGeneratedName_iff, not_exists,
    beq_iff_eq]
  exact and_congr_left fun _ => hasSourceSuffix_iff

/-! ## Sources -/

/-- the names lead from a folder down to a source -/
structure IsSource (exclude : List String) (marker : String) (t : FileTree) (names : List String) : Prop where
  file : ∃ bytes readable, t.at? names = some (.file bytes readable)
  /-- its name has the extension of sources -/
  extension : ∃ stem, stem ≠ "" ∧ names.getLast? = some (stem ++ ".cs")
  /-- and does not end as the names of generated files do -/
  handwritten : ∀ stem, names.getLast? ≠ some (stem ++ (marker ++ ".cs"))
  /-- no folder on the way is excluded -/
  entered : ∀ n ∈ names.dropLast, n ∉ exclude

theorem isSource_iff : IsSource exclude marker t names ↔
    (∃ bytes readable, t.at? names = some (.file bytes readable)) ∧
    (∃ n, names.getLast? = some n ∧ isSourceName marker n = true) ∧ ∀ n ∈ names.dropLast, n ∉ exclude := by
  constructor
  · rintro ⟨hfile, ⟨stem, hstem, hlast⟩, hhand, hentered⟩
    refine ⟨hfile, ⟨_, hlast, isSourceName_iff.2 ⟨⟨stem, hstem, rfl⟩, fun other hother => hhand other ?_⟩⟩, hentered⟩
    rw [hlast, hother]
  · rintro ⟨hfile, ⟨n, hlast, hname⟩, hentered⟩
    obtain ⟨⟨stem, hstem, rfl⟩, hhand⟩ := isSourceName_iff.1 hname
    exact ⟨hfile, ⟨stem, hstem, hlast⟩, fun other hother => hhand other (Option.some.inj (hlast.symm.trans hother)),
      hentered⟩

/-- a source of a folder is a source of one of its entries -/
theorem isSource_entries (h : (es.map Prod.fst).Nodup) :
    IsSource exclude marker (folder es) names ↔ ∃ e ∈ es, IsSource exclude marker (folder [e]) names := by
  constructor
  · rintro ⟨⟨bytes, readable, hfile⟩, hext, hhand, hentered⟩
    obtain ⟨e, he, hfile⟩ := (at?_entries h).1 hfile
    exact ⟨e, he, ⟨bytes, readable, hfile⟩, hext, hhand, hentered⟩
  · rintro ⟨e, he, ⟨bytes, readable, hfile⟩, hext, hhand, hentered⟩
    exact ⟨⟨bytes, readable, (at?_entries h).2 ⟨e, he, hfile⟩⟩, hext, hhand, hentered⟩

/-- a file is a source when its name is that of one -/
theorem isSource_file (bytes : List UInt8) (readable : Bool) :
    IsSource exclude marker (folder [(name, .file bytes readable)]) names ↔
      names = [name] ∧ isSourceName marker name = true := by
  rw [isSource_iff]
  constructor
  · rintro ⟨⟨b, r, hfile⟩, ⟨n, hlast, hname⟩, -⟩
    obtain ⟨rest, rfl, hrest⟩ := at?_entry.1 hfile
    cases rest with
    | nil =>
      cases hlast
      exact ⟨rfl, hname⟩
    | cons => cases hrest
  · rintro ⟨rfl, hname⟩
    exact ⟨⟨bytes, readable, at?_entry.2 ⟨[], rfl, rfl⟩⟩, ⟨name, rfl, hname⟩, fun n hn => nomatch hn⟩

/-- the sources of a folder under a name are its own with that name before them, unless the name is excluded -/
theorem isSource_folder : IsSource exclude marker (folder [(name, .folder es)]) names ↔
    name ∉ exclude ∧ ∃ rest, names = name :: rest ∧ IsSource exclude marker (folder es) rest := by
  constructor
  · intro h
    obtain ⟨⟨b, r, hfile⟩, ⟨n, hlast, hname⟩, hentered⟩ := isSource_iff.1 h
    obtain ⟨rest, rfl, hrest⟩ := at?_entry.1 hfile
    cases rest with
    | nil => cases hrest
    | cons k rest =>
      rw [List.getLast?_cons_cons] at hlast
      rw [List.dropLast_cons_cons, List.forall_mem_cons] at hentered
      exact ⟨hentered.1, k :: rest, rfl, isSource_iff.2 ⟨⟨b, r, hrest⟩, ⟨n, hlast, hname⟩, hentered.2⟩⟩
  · rintro ⟨hopen, rest, rfl, h⟩
    obtain ⟨⟨b, r, hfile⟩, ⟨n, hlast, hname⟩, hentered⟩ := isSource_iff.1 h
    cases rest with
    | nil => cases hlast
    | cons k rest =>
      refine isSource_iff.2 ⟨⟨b, r, at?_entry.2 ⟨k :: rest, rfl, hfile⟩⟩, ⟨n, ?_, hname⟩, ?_⟩
      · rw [List.getLast?_cons_cons, hlast]
      · rw [List.dropLast_cons_cons, List.forall_mem_cons]
        exact ⟨hopen, hentered⟩

/-! ## What is found -/

theorem inEntries_eq_flatMap (exclude : List String) (marker : String) (here : Path) (es : List (String × FileTree)) :
    inEntries exclude marker here es = es.flatMap fun e => inEntry exclude marker here e.1 e.2 := by
  induction es with
  | nil => rw [inEntries, List.flatMap_nil]
  | cons e rest ih => rw [inEntries, ih, List.flatMap_cons]

/-- what is found in a folder, if what is found in its entries are their sources -/
theorem mem_inEntries_of (hnodup : (es.map Prod.fst).Nodup)
    (h : ∀ e ∈ es, p ∈ inEntry exclude marker here e.1 e.2 ↔
      ∃ names, IsSource exclude marker (folder [e]) names ∧ p = here.below names) :
    p ∈ inEntries exclude marker here es ↔
      ∃ names, IsSource exclude marker (folder es) names ∧ p = here.below names := by
  rw [inEntries_eq_flatMap, List.mem_flatMap]
  constructor
  · rintro ⟨e, he, hp⟩
    obtain ⟨names, hsource, hp⟩ := (h e he).1 hp
    exact ⟨names, (isSource_entries hnodup).2 ⟨e, he, hsource⟩, hp⟩
  · rintro ⟨names, hsource, hp⟩
    obtain ⟨e, he, hsource⟩ := (isSource_entries hnodup).1 hsource
    exact ⟨e, he, (h e he).2 ⟨names, hsource, hp⟩⟩

/-- **Entries.** What is found in an entry of a folder are its sources. -/
theorem mem_inEntry (h : t.Lawful) : p ∈ inEntry exclude marker here name t ↔
    ∃ names, IsSource exclude marker (folder [(name, t)]) names ∧ p = here.below names := by
  induction t using FileTree.induct generalizing here name with
  | file bytes readable =>
    simp only [isSource_file]
    rw [inEntry]
    split
    · rename_i hname
      rw [List.mem_singleton]
      constructor
      · exact fun hp => ⟨[name], ⟨rfl, hname⟩, hp⟩
      · rintro ⟨_, ⟨rfl, -⟩, hp⟩
        exact hp
    · rename_i hname
      exact iff_of_false (fun hp => nomatch hp) fun ⟨_, ⟨_, hsource⟩, _⟩ => hname hsource
  | folder es ih =>
    simp only [isSource_folder]
    rw [inEntry]
    split
    · rename_i hexcluded
      have hexcluded := List.contains_iff_mem.1 hexcluded
      exact iff_of_false (fun hp => nomatch hp) fun ⟨_, ⟨hopen, _⟩, _⟩ => hopen hexcluded
    · rename_i hopen
      have hopen : name ∉ exclude := fun hmem => hopen (List.contains_iff_mem.2 hmem)
      rw [mem_inEntries_of h.nodup fun e he => ih e he (h.of_mem he)]
      constructor
      · rintro ⟨rest, hsource, hp⟩
        exact ⟨name :: rest, ⟨hopen, rest, rfl, hsource⟩, hp⟩
      · rintro ⟨_, ⟨-, rest, rfl, hsource⟩, hp⟩
        exact ⟨rest, hsource, hp⟩

/-- **Folders.** What is found in a folder are its sources. -/
theorem mem_inEntries (h : (folder es).Lawful) : p ∈ inEntries exclude marker here es ↔
    ∃ names, IsSource exclude marker (folder es) names ∧ p = here.below names :=
  mem_inEntries_of h.nodup fun _ he => mem_inEntry (h.of_mem he)

/-- the path of a source has the names on the way to it after the parts of the root -/
theorem IsSource.isPart (h : IsSource exclude marker t names) (ht : t.Lawful) : ∀ n ∈ names, Path.IsPart n := by
  obtain ⟨_, _, hfile⟩ := h.file
  exact fun n hn => Path.isPart_of_isBareName (ht.bare hfile n hn)

/-- what is found in an entry has its name behind the parts of the folder -/
theorem parts_of_mem_inEntry (hname : Path.IsBareName name) (h : t.Lawful)
    (hp : p ∈ inEntry exclude marker here name t) : ∃ rest, p.parts = here.parts ++ name :: rest := by
  have hsingle : (folder [(name, t)]).Lawful :=
    lawful_folder (List.nodup_singleton name) fun e he => by
      rcases List.mem_singleton.1 he with rfl
      exact ⟨hname, h⟩
  obtain ⟨names, hsource, rfl⟩ := (mem_inEntry h).1 hp
  obtain ⟨_, _, hfile⟩ := hsource.file
  obtain ⟨rest, rfl, -⟩ := at?_entry.1 hfile
  exact ⟨rest, Path.parts_below here (hsource.isPart hsingle)⟩

/-- what is found in folders is found once, if that holds of their entries -/
theorem nodup_inEntries_of (hes : (folder es).Lawful)
    (h : ∀ e ∈ es, (inEntry exclude marker here e.1 e.2).Nodup) : (inEntries exclude marker here es).Nodup := by
  rw [inEntries_eq_flatMap, List.nodup_flatMap]
  refine ⟨h, (List.pairwise_map.1 hes.nodup).imp_of_mem fun {e f} he hf hne => ?_⟩
  intro p hpe hpf
  obtain ⟨r, hr⟩ := parts_of_mem_inEntry ((hes [] es rfl).2 e he) (hes.of_mem he) hpe
  obtain ⟨s, hs⟩ := parts_of_mem_inEntry ((hes [] es rfl).2 f hf) (hes.of_mem hf) hpf
  exact hne (List.cons.inj (List.append_cancel_left (hr.symm.trans hs))).1

theorem nodup_inEntry (h : t.Lawful) : (inEntry exclude marker here name t).Nodup := by
  induction t using FileTree.induct generalizing here name with
  | file bytes readable =>
    rw [inEntry]
    split
    · exact List.nodup_singleton _
    · exact List.nodup_nil
  | folder es ih =>
    rw [inEntry]
    split
    · exact List.nodup_nil
    · exact nodup_inEntries_of h fun e he => ih e he (h.of_mem he)

/-- **Once.** Nothing is found twice in a folder. -/
theorem nodup_inEntries (h : (folder es).Lawful) : (inEntries exclude marker here es).Nodup :=
  nodup_inEntries_of h fun _ he => nodup_inEntry (h.of_mem he)

/-! ## The sources in order -/

/-- the paths are those of the sources of a folder, each of them once and in strictly increasing order -/
structure Lists (exclude : List String) (marker : String) (root : Path) (t : FileTree) (paths : List Path) : Prop where
  each : ∀ names, IsSource exclude marker t names → paths.count (root.below names) = 1
  only : ∀ p ∈ paths, ∃ names, IsSource exclude marker t names ∧ p = root.below names
  increasing : paths.Pairwise fun p q => p.start = q.start ∧ p.parts < q.parts

namespace Lists

theorem mem_iff (h : Lists exclude marker root t paths) :
    p ∈ paths ↔ ∃ names, IsSource exclude marker t names ∧ p = root.below names := by
  constructor
  · exact h.only p
  · rintro ⟨names, hsource, rfl⟩
    refine List.count_pos_iff.1 ?_
    rw [h.each names hsource]
    exact Nat.one_pos

theorem nodup (h : Lists exclude marker root t paths) : paths.Nodup :=
  h.increasing.imp fun hlt heq => hlt.2.ne (congrArg Path.parts heq)

/-- **One result.** Where the sources are the same, so are the paths. -/
theorem unique {others : List Path} (h : Lists exclude marker root t paths) (h' : Lists exclude marker root u others)
    (hsame : ∀ names, IsSource exclude marker t names ↔ IsSource exclude marker u names) : paths = others := by
  have hperm : paths.Perm others := by
    refine (List.perm_ext_iff_of_nodup h.nodup h'.nodup).2 fun p => ?_
    simp only [h.mem_iff, h'.mem_iff, hsame]
  exact hperm.eq_of_pairwise (fun p q _ _ hpq hqp => absurd hqp.2 hpq.2.not_gt) h.increasing h'.increasing

/-- the sources of a lawful folder, sorted -/
theorem of_sorted (exclude : List String) (marker : String) (root : Path) (h : (folder es).Lawful) :
    Lists exclude marker root (folder es) ((inEntries exclude marker root es).mergeSort Path.le) := by
  have hperm := List.mergeSort_perm (inEntries exclude marker root es) Path.le
  have hnodup := hperm.nodup_iff.2 (nodup_inEntries h)
  have hmem : ∀ p, p ∈ (inEntries exclude marker root es).mergeSort Path.le ↔
      ∃ names, IsSource exclude marker (folder es) names ∧ p = root.below names :=
    fun p => hperm.mem_iff.trans (mem_inEntries h)
  have hstart : ∀ p ∈ (inEntries exclude marker root es).mergeSort Path.le, p.start = root.start := by
    intro p hp
    obtain ⟨names, hsource, rfl⟩ := (hmem p).1 hp
    exact Path.start_below root (hsource.isPart h)
  refine ⟨fun names hsource => ?_, fun p hp => (hmem p).1 hp, ?_⟩
  · exact List.count_eq_one_of_mem hnodup ((hmem _).2 ⟨names, hsource, rfl⟩)
  · refine (hnodup.and (Path.pairwise_sorted _)).imp_of_mem fun {p q} hp hq ⟨hne, hle⟩ => ?_
    have hsame : p.start = q.start := (hstart p hp).trans (hstart q hq).symm
    exact ⟨hsame, lt_of_le_of_ne ((Path.le_iff hsame).1 hle) fun hparts => hne (Path.ext hsame hparts)⟩

end Lists

end Discovery

/-! ## Another order of listing -/

namespace FileTree

/-- what stands at the same place in two trees whose folders are listed in different orders -/
inductive SameEntry : Option FileTree → Option FileTree → Prop where
  | nothing : SameEntry none none
  | file (bytes : List UInt8) (readable : Bool) :
      SameEntry (some (.file bytes readable)) (some (.file bytes readable))
  /-- the same names, in any order -/
  | folder {es fs : List (String × FileTree)} (h : (es.map Prod.fst).Perm (fs.map Prod.fst)) :
      SameEntry (some (.folder es)) (some (.folder fs))

/-- the trees differ in the order in which their folders list what is in them, and in nothing else -/
def Relisted (t u : FileTree) : Prop := ∀ q, SameEntry (t.at? q) (u.at? q)

theorem SameEntry.refl (x : Option FileTree) : SameEntry x x := by
  match x with
  | none => exact .nothing
  | some (.file bytes readable) => exact .file bytes readable
  | some (.folder es) => exact .folder (.refl _)

/-- what is listed in a folder can be listed in any order -/
theorem relisted_of_perm {es fs : List (String × FileTree)} (hnodup : (es.map Prod.fst).Nodup) (h : es.Perm fs) :
    Relisted (.folder es) (.folder fs) := by
  have hnodup' : (fs.map Prod.fst).Nodup := (h.map Prod.fst).nodup_iff.1 hnodup
  intro q
  cases q with
  | nil => exact .folder (h.map Prod.fst)
  | cons n rest =>
    have hfind : find? n es = find? n fs := by
      refine Option.ext fun sub => ⟨fun hsub => ?_, fun hsub => ?_⟩
      · exact find?_of_mem hnodup' (h.subset (mem_of_find? hsub))
      · exact find?_of_mem hnodup (h.symm.subset (mem_of_find? hsub))
    rw [at?, at?, hfind]
    exact .refl _

namespace Relisted

variable {t u : FileTree} {es : List (String × FileTree)} {exclude : List String} {marker : String} {names : List String}

theorem symm (h : Relisted t u) : Relisted u t := by
  intro q
  have hq := h q
  generalize t.at? q = x at hq
  generalize u.at? q = y at hq
  cases hq with
  | nothing => exact .nothing
  | file bytes readable => exact .file bytes readable
  | folder hperm => exact .folder hperm.symm

theorem file {bytes : List UInt8} {readable : Bool} {q : Place} (h : Relisted t u)
    (ht : t.at? q = some (.file bytes readable)) : u.at? q = some (.file bytes readable) := by
  have hq := h q
  rw [ht] at hq
  generalize u.at? q = y at hq
  cases hq
  rfl

theorem folder {q : Place} (h : Relisted t u) (ht : t.at? q = some (.folder es)) :
    ∃ fs, u.at? q = some (.folder fs) ∧ (es.map Prod.fst).Perm (fs.map Prod.fst) := by
  have hq := h q
  rw [ht] at hq
  generalize u.at? q = y at hq
  cases hq with
  | folder hperm => exact ⟨_, rfl, hperm⟩

/-- a lawful tree is lawful in any order -/
theorem lawful (h : Relisted t u) (ht : t.Lawful) : u.Lawful := by
  intro q fs hfs
  obtain ⟨es, hes, hperm⟩ := h.symm.folder hfs
  obtain ⟨hnodup, hbare⟩ := ht q es hes
  refine ⟨hperm.nodup_iff.2 hnodup, fun f hf => ?_⟩
  obtain ⟨e, he, hname⟩ := List.mem_map.1 (hperm.subset (List.mem_map_of_mem hf))
  rw [← hname]
  exact hbare e he

/-- a folder that a path leads to is a folder in any order, and so is all that is in it -/
theorem get_folder {root : Path} (h : Relisted t u) (hroot : t.get root = .ok (.folder es)) :
    ∃ fs, u.get root = .ok (.folder fs) ∧ Relisted (.folder es) (.folder fs) := by
  obtain ⟨q, hlocate, hq⟩ := get_eq_ok.1 hroot
  obtain ⟨fs, hfs, -⟩ := h.folder hq
  have hlocate := locate_of_folders (fun hes => (h.folder hes).imp fun _ => And.left) hlocate
  refine ⟨fs, get_eq_ok.2 ⟨q, hlocate, hfs⟩, fun r => ?_⟩
  have hr := h (q ++ r)
  rw [at?_append, at?_append, hq, hfs] at hr
  exact hr

open Discovery

theorem isSource_of (h : Relisted t u) (hsource : IsSource exclude marker t names) : IsSource exclude marker u names := by
  obtain ⟨⟨bytes, readable, hfile⟩, hext, hhand, hentered⟩ := hsource
  exact ⟨⟨bytes, readable, h.file hfile⟩, hext, hhand, hentered⟩

/-- the sources are the same in any order -/
theorem isSource (h : Relisted t u) : IsSource exclude marker t names ↔ IsSource exclude marker u names :=
  ⟨h.isSource_of, h.symm.isSource_of⟩

end Relisted

end FileTree

/-! ## Discovery -/

namespace Discovery

variable {files : FileTree} {es : List (String × FileTree)} {root : Path}

theorem discover_of_folder (exclude : List String) (marker : String) (h : files.get root = .ok (.folder es)) :
    discover files root exclude marker = .ok ((inEntries exclude marker root es).mergeSort Path.le) := by
  rw [discover, h]

theorem discover_of_not_folder (exclude : List String) (marker : String) (h : files.isFolder root = false) :
    discover files root exclude marker = .error (.rootNotFolder root) := by
  rw [discover]
  split
  · rename_i es hes
    rw [isFolder_iff.2 ⟨es, hes⟩] at h
    cases h
  · rfl

end Discovery

/-- **Discovery.** Below a root that is a folder, exactly the sources are discovered, each once and in strictly increasing
order; in what order folders are listed makes no difference. It fails exactly when the root is no folder. -/
theorem discover_exact (files : FileTree) (root : Path) (exclude : List String) (marker : String)
    (hlawful : files.Lawful) :
    (Discovery.discover files root exclude marker = .error (.rootNotFolder root) ↔ files.isFolder root = false) ∧
    ∀ es, files.get root = .ok (.folder es) → ∃ paths, Discovery.discover files root exclude marker = .ok paths ∧
      Discovery.Lists exclude marker root (.folder es) paths ∧
      ∀ other, FileTree.Relisted files other → Discovery.discover other root exclude marker = .ok paths := by
  constructor
  · refine ⟨fun h => ?_, Discovery.discover_of_not_folder exclude marker⟩
    rw [← Bool.not_eq_true]
    intro hfolder
    obtain ⟨es, hes⟩ := isFolder_iff.1 hfolder
    rw [Discovery.discover_of_folder exclude marker hes] at h
    cases h
  · intro es hes
    have hfolder : ∀ t fs, FileTree.Lawful t → t.get root = .ok (.folder fs) → (folder fs).Lawful := by
      intro t fs ht hfs
      obtain ⟨q, -, hq⟩ := get_eq_ok.1 hfs
      exact ht.of_at? hq
    have hlists := Discovery.Lists.of_sorted exclude marker root (hfolder files es hlawful hes)
    refine ⟨_, Discovery.discover_of_folder exclude marker hes, hlists, fun other hother => ?_⟩
    obtain ⟨fs, hfs, hsame⟩ := hother.get_folder hes
    have hothers := Discovery.Lists.of_sorted exclude marker root (hfolder other fs (hother.lawful hlawful) hfs)
    rw [Discovery.discover_of_folder exclude marker hfs, hlists.unique hothers fun _ => hsame.isSource]

/-! ### A folder listed from both ends -/

namespace Discovery.Sample

/-- a folder that is excluded, a folder with a source and a generated file, and a source -/
def entries : List (String × FileTree) :=
  [("obj", .folder [("Cache.cs", .file [] true)]),
    ("b", .folder [("Foo.g.cs", .file [] true), ("Foo.cs", .file [] true)]), ("Behavior.cs", .file [] true)]

theorem lawful_entries : (FileTree.folder entries).Lawful := by
  have hfile := lawful_file [] true
  have hobj : (FileTree.folder [("Cache.cs", .file [] true)]).Lawful :=
    lawful_folder (by decide) (List.forall_mem_singleton.2 ⟨by decide, hfile⟩)
  have hb : (FileTree.folder [("Foo.g.cs", .file [] true), ("Foo.cs", .file [] true)]).Lawful := by
    refine lawful_folder (by decide) (List.forall_mem_cons.2 ⟨⟨by decide, hfile⟩, ?_⟩)
    exact List.forall_mem_singleton.2 ⟨by decide, hfile⟩
  refine lawful_folder (by decide) (List.forall_mem_cons.2 ⟨⟨by decide, hobj⟩, ?_⟩)
  exact List.forall_mem_cons.2 ⟨⟨by decide, hb⟩, List.forall_mem_singleton.2 ⟨by decide, hfile⟩⟩

end Discovery.Sample

theorem discover_exact_reversed :
    (FileTree.folder Discovery.Sample.entries).Lawful ∧
    (FileTree.folder Discovery.Sample.entries).get default = .ok (.folder Discovery.Sample.entries) ∧
    FileTree.Relisted (.folder Discovery.Sample.entries) (.folder Discovery.Sample.entries.reverse) ∧
    ∃ paths, Discovery.discover (.folder Discovery.Sample.entries) default Discovery.standardExcludes ".g" = .ok paths ∧
      Discovery.Lists Discovery.standardExcludes ".g" default (.folder Discovery.Sample.entries) paths ∧
      Discovery.discover (.folder Discovery.Sample.entries.reverse) default Discovery.standardExcludes ".g" = .ok paths := by
  have hlawful := Discovery.Sample.lawful_entries
  have hroot : (FileTree.folder Discovery.Sample.entries).get default = .ok (.folder Discovery.Sample.entries) := rfl
  have hreversed := relisted_of_perm hlawful.nodup (List.reverse_perm Discovery.Sample.entries).symm
  obtain ⟨paths, hpaths, hlists, hsame⟩ := (discover_exact _ default Discovery.standardExcludes ".g" hlawful).2 _ hroot
  exact ⟨hlawful, hroot, hreversed, paths, hpaths, hlists, hsame _ hreversed⟩

end SignalWiring
