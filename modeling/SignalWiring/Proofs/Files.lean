/-
What can happen to a tree of files.

Everything that writing does to a tree is one of two elementary changes (`Change`): a folder is made where nothing is, or
a file is put at one of the target places. A change leaves every folder a folder and every file elsewhere what it is
(`Change.grows`), so paths that lead somewhere still lead there (`Grows.locate`, `Grows.get_file`).

- `at?_setAt`: what setting a place does to every other place.
- `makeFolders_changes`, `write_name`: both operations are made of changes, and a file that is written is there.
-/
import SignalWiring.FileTree
import Mathlib.Data.List.Basic
import Mathlib.Logic.Relation

namespace SignalWiring.FileTree

/-! ## Places -/

/-- where parts lead from a place when every name on the way is a folder -/
def resolve : (here : Place) → List String → Place
  | here, [] => here
  | here, p :: rest => if p = ".." then resolve here.dropLast rest else resolve (here ++ [p]) rest

/-- where a path leads when it can be followed -/
def placeOf (p : Path) : Place := resolve [] p.parts

section Places

variable {t : FileTree} {here q : Place} {parts : List String}

/-- parts that can be followed lead where their names say -/
theorem locate_eq (h : locate t here parts = .ok q) : q = resolve here parts := by
  induction parts generalizing here with
  | nil =>
    cases h
    rfl
  | cons p rest ih =>
    rw [locate] at h
    split at h
    · rw [resolve]
      split at h
      · rename_i hup
        rw [if_pos hup]
        exact ih h
      · rename_i hup
        rw [if_neg hup]
        exact ih h
    · cases h
    · cases h

theorem resolve_append (here : Place) (parts others : List String) :
    resolve here (parts ++ others) = resolve (resolve here parts) others := by
  induction parts generalizing here with
  | nil => rfl
  | cons p rest ih =>
    rw [List.cons_append, resolve, resolve]
    split
    · exact ih _
    · exact ih _

theorem locate_append (t : FileTree) (here : Place) (parts others : List String) :
    locate t here (parts ++ others) = (locate t here parts).bind fun q => locate t q others := by
  induction parts generalizing here with
  | nil => rfl
  | cons p rest ih =>
    rw [List.cons_append, locate, locate]
    split
    · split
      · exact ih _
      · exact ih _
    · rfl
    · rfl

/-- a name in a folder leads to its place there -/
theorem locate_name {es : List (String × FileTree)} {n : String} (h : t.at? q = some (.folder es)) (hn : n ≠ "..") :
    locate t q [n] = .ok (q ++ [n]) := by
  rw [locate, h]
  simp only [hn, if_false]
  rfl

/-- parts up to a name lead to a place in a folder -/
theorem of_locate_name {n : String} (h : locate t here (parts ++ [n]) = .ok q) (hn : n ≠ "..") :
    ∃ above es, locate t here parts = .ok above ∧ t.at? above = some (.folder es) ∧ q = above ++ [n] := by
  rw [locate_append] at h
  cases habove : locate t here parts with
  | error e =>
    rw [habove] at h
    cases h
  | ok above =>
    rw [habove] at h
    change locate t above [n] = .ok q at h
    rw [locate] at h
    split at h
    · rename_i es hes
      rw [if_neg hn] at h
      cases h
      exact ⟨above, es, rfl, hes, rfl⟩
    · cases h
    · cases h

/-- parts that can be followed are followed to the same place where all folders are folders -/
theorem locate_of_folders {u : FileTree} (h : ∀ {q es}, t.at? q = some (.folder es) → ∃ es', u.at? q = some (.folder es'))
    (hlocate : locate t here parts = .ok q) : locate u here parts = .ok q := by
  induction parts generalizing here with
  | nil => exact hlocate
  | cons p rest ih =>
    rw [locate] at hlocate ⊢
    split at hlocate
    · rename_i es hes
      obtain ⟨es', hes'⟩ := h hes
      rw [hes']
      split at hlocate
      · rename_i hup
        rw [if_pos hup]
        exact ih hlocate
      · rename_i hup
        rw [if_neg hup]
        exact ih hlocate
    · cases hlocate
    · cases hlocate

theorem get_eq_ok {p : Path} {found : FileTree} :
    t.get p = .ok found ↔ ∃ q, locate t [] p.parts = .ok q ∧ t.at? q = some found := by
  rw [get]
  cases locate t [] p.parts with
  | error e => simp
  | ok q =>
    cases hq : t.at? q with
    | none => simp [hq]
    | some x => simp [hq]

theorem isFile_iff {p : Path} : t.isFile p = true ↔ ∃ bytes readable, t.get p = .ok (.file bytes readable) := by
  rw [isFile]
  cases t.get p with
  | error e => simp
  | ok x => cases x <;> simp

theorem read_eq_ok {p : Path} {bytes : List UInt8} :
    t.read p = .ok bytes ↔ t.get p = .ok (.file bytes true) := by
  rw [read]
  cases t.get p with
  | error e => simp
  | ok x =>
    cases x with
    | folder es => simp
    | file b readable => cases readable <;> simp

theorem at?_append (t : FileTree) (q r : Place) : t.at? (q ++ r) = (t.at? q).bind fun u => u.at? r := by
  induction q generalizing t with
  | nil => rfl
  | cons n q ih =>
    cases t with
    | file b readable => rfl
    | folder es =>
      rw [List.cons_append, at?, at?]
      cases find? n es with
      | none => rfl
      | some sub => exact ih sub

/-- nothing is below a place where nothing is -/
theorem at?_append_of_none (h : t.at? q = none) (r : Place) : t.at? (q ++ r) = none := by
  rw [at?_append, h]
  rfl

/-- nothing is below a file -/
theorem at?_append_of_file {b : List UInt8} {readable : Bool} {r : Place} (h : t.at? q = some (.file b readable))
    (hr : r ≠ []) : t.at? (q ++ r) = none := by
  rw [at?_append, h]
  cases r with
  | nil => exact absurd rfl hr
  | cons n r => rfl

/-- nothing is in an empty folder -/
theorem at?_empty {r : Place} (hr : r ≠ []) : empty.at? r = none := by
  cases r with
  | nil => exact absurd rfl hr
  | cons n r => rfl

end Places

/-! ## Setting a place -/

section Setting

variable {t x : FileTree} {q : Place}

/-- a place below a folder is set in its part -/
theorem setAt_below {es : List (String × FileTree)} {n : String} {sub : FileTree} (x : FileTree) (hq : q ≠ [])
    (hsub : find? n es = some sub) :
    (folder es).setAt (n :: q) x = folder (putNamed n (sub.setAt q x) es) := by
  rw [setAt, hsub]
  exact hq

/-- nothing is set where there is no way -/
theorem setAt_nowhere {es : List (String × FileTree)} {n : String} (x : FileTree) (hq : q ≠ [])
    (hsub : find? n es = none) : (folder es).setAt (n :: q) x = folder es := by
  rw [setAt, hsub]
  exact hq

/-- **Setting a place.** Another place is as before, or is above and holds what it held with its part set, or is below
and holds what comes with the new tree. -/
theorem at?_setAt (t x : FileTree) (q q' : Place) :
    (t.setAt q x).at? q' = t.at? q' ∨
    (∃ r, r ≠ [] ∧ q = q' ++ r ∧ (t.setAt q x).at? q' = (t.at? q').map fun u => u.setAt r x) ∨
    ∃ r, q' = q ++ r ∧ (t.setAt q x).at? q' = x.at? r := by
  induction q generalizing t q' with
  | nil => exact Or.inr (Or.inr ⟨q', rfl, by rw [setAt]⟩)
  | cons n rest ih =>
    cases q' with
    | nil => exact Or.inr (Or.inl ⟨n :: rest, List.cons_ne_nil n rest, rfl, rfl⟩)
    | cons m q' =>
      cases t with
      | file b readable => exact Or.inl rfl
      | folder es =>
        cases rest with
        | nil =>
          by_cases hm : m = n
          · subst hm
            refine Or.inr (Or.inr ⟨q', rfl, ?_⟩)
            rw [setAt, at?, find?_putNamed_self]
            rfl
          · left
            rw [setAt, at?, at?, find?_putNamed_of_ne hm]
        | cons k rest =>
          cases hsub : find? n es with
          | none =>
            left
            rw [setAt_nowhere x (List.cons_ne_nil k rest) hsub]
          | some sub =>
            rw [setAt_below x (List.cons_ne_nil k rest) hsub, at?]
            by_cases hm : m = n
            · subst hm
              rw [find?_putNamed_self, at?, hsub]
              rcases ih sub q' with hsame | ⟨r, hr, hq, habove⟩ | ⟨r, hq, hbelow⟩
              · exact Or.inl hsame
              · exact Or.inr (Or.inl ⟨r, hr, congrArg (m :: ·) hq, habove⟩)
              · exact Or.inr (Or.inr ⟨r, congrArg (m :: ·) hq, hbelow⟩)
            · left
              rw [find?_putNamed_of_ne hm, at?]

/-- a new tree stands where it is put, if that is in a folder -/
theorem at?_setAt_self {es : List (String × FileTree)} {n : String} (x : FileTree) (h : t.at? q = some (.folder es)) :
    (t.setAt (q ++ [n]) x).at? (q ++ [n]) = some x := by
  induction q generalizing t with
  | nil =>
    cases h
    rw [List.nil_append, setAt, at?, find?_putNamed_self]
    rfl
  | cons m q ih =>
    cases t with
    | file b readable => cases h
    | folder entries =>
      rw [at?] at h
      obtain ⟨sub, hsub, hat⟩ := Option.bind_eq_some_iff.1 h
      rw [List.cons_append, setAt_below x (List.append_ne_nil_of_right_ne_nil q (List.cons_ne_nil n [])) hsub, at?,
        find?_putNamed_self]
      exact ih hat

end Setting

/-! ## Changes -/

inductive Change (targets : List Place) (t : FileTree) : FileTree → Prop where
  /-- an empty folder is put where nothing is -/
  | made {q : Place} : t.at? q = none → Change targets t (t.setAt q empty)
  /-- a file is put at a target place where no folder is -/
  | wrote {q : Place} {bytes : List UInt8} : q ∈ targets → q ≠ [] → (∀ es, t.at? q ≠ some (.folder es)) →
      Change targets t (t.setAt q (.file bytes true))

/-- some changes, one after the other -/
abbrev Changes (targets : List Place) : FileTree → FileTree → Prop := Relation.ReflTransGen (Change targets)

/-- folders stay folders, and files stay what they are but for the target places -/
structure Grows (targets : List Place) (t u : FileTree) : Prop where
  folders : ∀ {q es}, t.at? q = some (.folder es) → ∃ es', u.at? q = some (.folder es')
  files : ∀ {q bytes readable}, q ∉ targets →
    (u.at? q = some (.file bytes readable) ↔ t.at? q = some (.file bytes readable))

section Changes

variable {t u v x : FileTree} {q : Place} {targets : List Place}

theorem Grows.refl (targets : List Place) (t : FileTree) : Grows targets t t := ⟨fun h => ⟨_, h⟩, fun _ => Iff.rfl⟩

theorem Grows.trans (h : Grows targets t u) (h' : Grows targets u v) : Grows targets t v where
  folders ht := by
    obtain ⟨es, hu⟩ := h.folders ht
    exact h'.folders hu
  files hq := (h'.files hq).trans (h.files hq)

/-- a folder in which something is set stays one -/
theorem exists_setAt_folder (es : List (String × FileTree)) (x : FileTree) (hq : q ≠ []) :
    ∃ es', (folder es).setAt q x = folder es' := by
  cases q with
  | nil => exact absurd rfl hq
  | cons n rest =>
    cases rest with
    | nil => exact ⟨_, rfl⟩
    | cons k rest =>
      cases hsub : find? n es with
      | none => exact ⟨es, setAt_nowhere x (List.cons_ne_nil k rest) hsub⟩
      | some sub => exact ⟨_, setAt_below x (List.cons_ne_nil k rest) hsub⟩

/-- a file in which something is set stays what it is -/
theorem setAt_file (b : List UInt8) (readable : Bool) (x : FileTree) (hq : q ≠ []) :
    (file b readable).setAt q x = file b readable := by
  cases q with
  | nil => exact absurd rfl hq
  | cons n rest => rfl

/-- nothing is below what is no folder -/
theorem at?_append_of_not_folder (h : ∀ es, t.at? q ≠ some (.folder es)) {r : Place} (hr : r ≠ []) :
    t.at? (q ++ r) = none := by
  cases hq : t.at? q with
  | none => exact at?_append_of_none hq r
  | some found =>
    cases found with
    | file b readable => exact at?_append_of_file hq hr
    | folder es => exact absurd hq (h es)

/-- What has nothing below it and is set where no folder is leaves all folders and all other files. -/
theorem grows_setAt (hold : ∀ es, t.at? q ≠ some (.folder es)) (hnew : ∀ r, r ≠ [] → x.at? r = none)
    (hfile : q ∉ targets → t.at? q = none ∧ ∀ b readable, x ≠ .file b readable) : Grows targets t (t.setAt q x) where
  folders {q' es} h := by
    rcases at?_setAt t x q q' with hsame | ⟨r, hr, -, habove⟩ | ⟨r, rfl, -⟩
    · exact ⟨es, hsame.trans h⟩
    · obtain ⟨es', hes'⟩ := exists_setAt_folder es x hr
      rw [habove, h, Option.map_some, hes']
      exact ⟨es', rfl⟩
    · by_cases hr : r = []
      · rw [hr, List.append_nil] at h
        exact absurd h (hold es)
      · rw [at?_append_of_not_folder hold hr] at h
        cases h
  files {q' b readable} hq' := by
    rcases at?_setAt t x q q' with hsame | ⟨r, hr, -, habove⟩ | ⟨r, rfl, hbelow⟩
    · rw [hsame]
    · rw [habove]
      cases hfound : t.at? q' with
      | none => rfl
      | some found =>
        cases found with
        | file b' readable' => rw [Option.map_some, setAt_file b' readable' x hr]
        | folder es =>
          obtain ⟨es', hes'⟩ := exists_setAt_folder es x hr
          rw [Option.map_some, hes']
          exact ⟨fun h => (nomatch h), fun h => (nomatch h)⟩
    · rw [hbelow]
      by_cases hr : r = []
      · subst hr
        rw [List.append_nil] at hq' ⊢
        obtain ⟨hnone, hx⟩ := hfile hq'
        rw [hnone]
        exact ⟨fun h => absurd (Option.some.inj h) (hx b readable), fun h => (nomatch h)⟩
      · rw [hnew r hr, at?_append_of_not_folder hold hr]

/-- **A change.** It leaves folders folders, and files elsewhere what they are. -/
theorem Change.grows (h : Change targets t u) : Grows targets t u := by
  cases h with
  | @made q hnone =>
    refine grows_setAt (fun es h => ?_) (fun r => at?_empty) fun _ => ⟨hnone, fun b readable h => (nomatch h)⟩
    rw [hnone] at h
    cases h
  | @wrote q bytes htarget hq hold =>
    exact grows_setAt hold (fun r hr => at?_append_of_file (q := []) rfl hr) fun h => absurd htarget h

theorem Changes.grows (h : Changes targets t u) : Grows targets t u := by
  induction h with
  | refl => exact Grows.refl targets t
  | tail _ hchange ih => exact ih.trans hchange.grows

theorem Changes.mono {others : List Place} (hsub : ∀ q ∈ targets, q ∈ others) (h : Changes targets t u) :
    Changes others t u := by
  refine Relation.ReflTransGen.mono (fun a b hab => ?_) t u h
  cases hab with
  | made hnone => exact .made hnone
  | wrote htarget hq hold => exact .wrote (hsub _ htarget) hq hold

/-! ## What grows keeps its paths -/

/-- parts that can be followed are followed to the same place -/
theorem Grows.locate (h : Grows targets t u) {here : Place} {parts : List String}
    (hlocate : FileTree.locate t here parts = .ok q) : FileTree.locate u here parts = .ok q :=
  locate_of_folders h.folders hlocate

/-- a file under a name in a folder that was there is no new file, unless it is a target -/
theorem Grows.get_file_of_folder (h : Grows targets t u) {root p : Path} {n : String} {es : List (String × FileTree)}
    {bytes : List UInt8} {readable : Bool} (hroot : t.get root = .ok (.folder es)) (hparts : p.parts = root.parts ++ [n])
    (hn : n ≠ "..") (hp : placeOf p ∉ targets) (hget : u.get p = .ok (.file bytes readable)) :
    t.get p = .ok (.file bytes readable) := by
  obtain ⟨top, hlocate, htop⟩ := get_eq_ok.1 hroot
  have hname : FileTree.locate t [] p.parts = .ok (top ++ [n]) := by
    rw [hparts, locate_append, hlocate]
    exact locate_name htop hn
  obtain ⟨q, hlocate', hq⟩ := get_eq_ok.1 hget
  obtain rfl : top ++ [n] = q := Except.ok.inj ((h.locate hname).symm.trans hlocate')
  have hplace : top ++ [n] = placeOf p := locate_eq hname
  exact get_eq_ok.2 ⟨_, hname, (h.files (hplace ▸ hp)).1 hq⟩

/-- a file that is no target is the file it was -/
theorem Grows.get_file (h : Grows targets t u) {p : Path} {bytes : List UInt8} {readable : Bool}
    (hp : placeOf p ∉ targets) (hget : t.get p = .ok (.file bytes readable)) : u.get p = .ok (.file bytes readable) := by
  obtain ⟨q, hlocate, hq⟩ := get_eq_ok.1 hget
  have hplace : q = placeOf p := locate_eq hlocate
  exact get_eq_ok.2 ⟨q, h.locate hlocate, (h.files (hplace ▸ hp)).2 hq⟩

end Changes

/-! ## Making folders and writing files -/

section Operations

variable {t u : FileTree} {targets : List Place} {p : Path} {bytes : List UInt8}

theorem makeFoldersFrom_changes (t : FileTree) (made : Bool) (here : Place) (parts : List String) :
    Changes targets t (t.makeFoldersFrom made here parts).1 := by
  induction parts generalizing t made here with
  | nil =>
    rw [makeFoldersFrom]
    split
    · exact .refl
    · exact .refl
  | cons p rest ih =>
    rw [makeFoldersFrom]
    split
    · exact .refl
    · split
      · exact ih t made here.dropLast
      · split
        · rename_i hnone
          exact .head (.made hnone) (ih _ true _)
        · exact ih t made _

/-- Folders are made by changes, whether all of them can be made or not. -/
theorem makeFolders_changes (targets : List Place) (t : FileTree) (p : Path) : Changes targets t (t.makeFolders p).1 :=
  makeFoldersFrom_changes t false [] p.parts

/-- a file is written by setting its place, where no folder is -/
theorem write_eq_ok (h : t.write p bytes = .ok u) : ∃ place, locate t [] p.parts = .ok place ∧
    (∀ es, t.at? place ≠ some (.folder es)) ∧ u = t.setAt place (.file bytes true) := by
  rw [write] at h
  cases hlocate : locate t [] p.parts with
  | error e =>
    rw [hlocate] at h
    cases h
  | ok place =>
    refine ⟨place, rfl, ?_⟩
    rw [hlocate] at h
    cases hold : t.at? place with
    | none =>
      simp only [hold] at h
      cases h
      exact ⟨fun es h => (nomatch h), rfl⟩
    | some found =>
      cases found with
      | folder es =>
        simp only [hold] at h
        cases h
      | file b readable =>
        simp only [hold] at h
        split at h
        · cases h
          exact ⟨fun es h => (nomatch h), rfl⟩
        · cases h

/-- **Writing.** A file that is written under a name is put there by a change, and is found there. -/
theorem write_name {front : List String} {n : String} (hparts : p.parts = front ++ [n]) (hn : n ≠ "..")
    (htarget : placeOf p ∈ targets) (h : t.write p bytes = .ok u) :
    Changes targets t u ∧ u.get p = .ok (.file bytes true) := by
  obtain ⟨place, hlocate, hold, rfl⟩ := write_eq_ok h
  have hplace : place = placeOf p := locate_eq hlocate
  obtain ⟨above, es, -, habove, rfl⟩ := of_locate_name (hparts ▸ hlocate) hn
  have hchange : Change targets t (t.setAt (above ++ [n]) (.file bytes true)) :=
    .wrote (hplace ▸ htarget) (List.append_ne_nil_of_right_ne_nil above (List.cons_ne_nil n [])) hold
  exact ⟨.single hchange, get_eq_ok.2 ⟨_, hchange.grows.locate hlocate, at?_setAt_self _ habove⟩⟩

end Operations

end SignalWiring.FileTree
