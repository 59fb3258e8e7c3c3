/-
When fragments come about, and what they depend on.

- `exists_hintName`: a file name has an output name, which is another one.
- `renderFragment_eq_ok`: a fragment is what its slots build. `exists_renderFragment`: there is one as soon as the table
  has the events of the context.
- `checkDigits_of_fits`, `checkDigits_of_long`: identifiers are written out under a limit exactly when none is too long.
- `emit_eq_ok`, `exists_fragmentsOf`: a run's fragments and table; they come about once the events are numbered.
- `renderFragment_bare`: where handlers were declared does not matter.
- `fragmentsOf_within`: nor does a limit on the digits of identifiers, as long as the run has few enough events.
-/
import SignalWiring.Pipeline
import SignalWiring.Proofs.Numbering
import SignalWiring.Proofs.Refusal

namespace SignalWiring

/-! ## Output names -/

namespace Path

/-- the stem and the suffix make up the name -/
theorem splitName_append (name : String) : (splitName name).1 ++ (splitName name).2 = name := by
  have hcut : name.toList.reverse.takeWhile (· != '.') ++ name.toList.reverse.dropWhile (· != '.') =
      name.toList.reverse := List.takeWhile_append_dropWhile
  rw [splitName]
  split
  · rename_i dot front hfront
    split
    · exact String.append_empty
    · apply String.toList_injective
      rw [hfront] at hcut
      have hback := congrArg List.reverse hcut
      simp only [List.reverse_append, List.reverse_cons, List.reverse_reverse, List.append_assoc,
        List.singleton_append] at hback
      simp only [String.toList_append, String.toList_ofList]
      exact hback
  · exact String.append_empty

/-- a part read as a path is its own name -/
theorem name_ofString {s : String} (h : IsPart s) : (ofString s).name = s := by
  have hparts : (ofString s).parts = [s] := partsOf_of_isPart h
  rw [name, hparts]
  rfl

/-- the name of a path is one of its parts, if there is a name -/
theorem isPart_name {p : Path} (h : p.name ≠ "") : IsPart p.name := by
  cases hp : p.parts with
  | nil =>
    rw [name, hp] at h
    exact absurd rfl h
  | cons x rest =>
    apply p.clean
    rw [name, List.getLastD_eq_getLast?, List.getLast?_eq_some_getLast (by rw [hp]; exact List.cons_ne_nil x rest)]
    exact List.getLast_mem _

end Path

theorem Artifact.isPart_id (a : Artifact) : Path.IsPart a.id := Path.isPart_name a.named

/-- a marker that is long enough is there -/
theorem ne_empty_of_two_le {marker : String} (h : 2 ≤ marker.length) : marker ≠ "" := by
  rintro rfl
  exact absurd h (by decide)

/-- **Output names.** A file name has an output name, which is another one. -/
theorem exists_hintName {artifact marker : String} (h : Path.IsPart artifact) (hmarker : marker ≠ "") :
    ∃ hint, hintName artifact marker = .ok hint ∧ hint ≠ "" ∧ hint ≠ artifact := by
  have hpos : 0 < marker.length := by
    rw [Nat.pos_iff_ne_zero, ne_eq, String.length_eq_zero_iff]
    exact hmarker
  rw [hintName, if_neg h.1]
  by_cases hs : (Path.ofString artifact).suffix = ""
  · refine ⟨artifact ++ marker, if_pos hs, fun hempty => ?_, fun hsame => ?_⟩
    · exact h.1 (String.append_eq_empty_iff.1 hempty).1
    · have hlength := congrArg String.length hsame
      rw [String.length_append] at hlength
      omega
  · refine ⟨_, if_neg hs, fun hempty => ?_, fun hsame => ?_⟩
    · exact hs (String.append_eq_empty_iff.1 hempty).2
    · have hparts : ((Path.ofString artifact).stem ++ (Path.ofString artifact).suffix) = artifact := by
        rw [Path.stem, Path.suffix, Path.name_ofString h]
        exact Path.splitName_append artifact
      have hlength := congrArg String.length hsame
      have hparts := congrArg String.length hparts
      rw [String.length_append, String.length_append] at hlength
      rw [String.length_append] at hparts
      omega

/-! ## Digits -/

theorem Decimal.tenTo_eq (n : ℕ) : Decimal.tenTo n = 10 ^ n := by
  induction n with
  | zero => rfl
  | succ n ih => rw [Decimal.tenTo, ih, Nat.pow_succ, Nat.mul_comm]

theorem Decimal.overlong_eq_false_iff {digits : ℕ} {n : ℤ} :
    Decimal.overlong digits n = false ↔ n.natAbs < 10 ^ digits := by
  rw [Decimal.overlong, decide_eq_false_iff_not, Nat.not_le, Decimal.tenTo_eq]

/-- the number has at most `limit` decimal digits, if there is a limit -/
def Decimal.Fits (limit : Option ℕ) (n : ℤ) : Prop := ∀ digits ∈ limit, n.natAbs < 10 ^ digits

/-! ## Fragments -/

namespace Emission.Renderer

variable {r : Renderer} {c : Context} {t : IdTable} {f : Fragment} {limit : Option ℕ}

theorem checkDigits_of_fits {ids : List ℤ} (h : ∀ i ∈ ids, Decimal.Fits limit i) : checkDigits limit ids = .ok () := by
  cases limit with
  | none => rfl
  | some digits =>
    refine if_neg fun hany => ?_
    obtain ⟨i, hi, hlong⟩ := List.any_eq_true.1 hany
    rw [Decimal.overlong_eq_false_iff.2 (h i hi digits rfl)] at hlong
    cases hlong

/-- An identifier that is too long is told about, with the limit. -/
theorem checkDigits_of_long {ids : List ℤ} {i : ℤ} (hi : i ∈ ids) (h : ¬Decimal.Fits limit i) :
    ∃ digits, limit = some digits ∧ checkDigits limit ids = .error (.invalid (.tooManyDigits digits)) := by
  cases limit with
  | none => exact absurd (fun digits hnone => absurd hnone (Option.not_mem_none digits)) h
  | some digits =>
    refine ⟨digits, rfl, if_pos (List.any_eq_true.2 ⟨i, hi, ?_⟩)⟩
    rw [← Bool.not_eq_false, Decimal.overlong_eq_false_iff]
    intro hfits
    refine h fun other hother => ?_
    cases hother
    exact hfits

/-- A fragment is what its slots build. -/
theorem renderFragment_eq_ok (h : r.renderFragment c t = .ok f) :
    f.artifact = c.artifact ∧ f.isRoot = r.config.isRoot c.artifact ∧
      f.source = (r.slots c (r.config.isRoot c.artifact) t).build := by
  obtain ⟨hint, -, h⟩ := bind_eq_ok h
  obtain ⟨source, hsource, h⟩ := bind_eq_ok h
  obtain ⟨ids, -, hsource⟩ := bind_eq_ok hsource
  cases hsource
  simp only [Fragment.make] at h
  split at h
  · cases h
  · split at h
    · cases h
    · split at h
      · cases h
      · cases h
        exact ⟨rfl, rfl, rfl⟩

/-- A limit does not matter to a table whose identifiers fit. -/
theorem renderFragment_of_fits (h : ∀ e ∈ t.items, Decimal.Fits limit e.1) :
    r.renderFragment c t limit = r.renderFragment c t := by
  have hcheck : ∀ isRoot, checkDigits limit (shown isRoot t) = .ok () := by
    refine fun isRoot => checkDigits_of_fits fun i hi => ?_
    unfold shown at hi
    split at hi
    · obtain ⟨e, he, rfl⟩ := List.mem_map.1 hi
      exact h e he
    · exact absurd hi List.not_mem_nil
  simp only [renderFragment, render, hcheck]
  rfl

theorem exists_idOf {e : String} (h : e ∈ t.names.keys) : ∃ id, t.idOf e = .ok id := by
  obtain ⟨id, hid⟩ := Ledger.exists_get?_of_mem h
  exact ⟨id, by simp only [IdTable.idOf, hid]⟩

/-- There is a fragment as soon as the table has the events of the context. -/
theorem exists_renderFragment (hpart : Path.IsPart c.artifact) (h : ∀ e ∈ c.events, e ∈ t.names.keys) :
    ∃ f, r.renderFragment c t = .ok f := by
  obtain ⟨hint, hhint, hne, hother⟩ := exists_hintName hpart (ne_empty_of_two_le r.config.generated_ok.2)
  obtain ⟨ids, hids⟩ := exists_mapM fun e he => exists_idOf (h e he)
  refine ⟨⟨c.artifact, hint, (r.slots c (r.config.isRoot c.artifact) t).build, r.config.isRoot c.artifact, hpart.1, hne,
    hother⟩, ?_⟩
  rw [renderFragment, hhint]
  change (r.render c (r.config.isRoot c.artifact) t >>= _) = _
  rw [render, hids]
  change Fragment.make c.artifact hint _ _ = _
  rw [Fragment.make, dif_neg hpart.1, dif_neg hne, dif_neg hother]

end Emission.Renderer

/-! ## Contexts without places -/

/-- the handler without the place where it was declared -/
def Handler.bare (h : Handler) : Handler := { h with location := none }

/-- the context without the places of its handlers -/
def Context.bare (c : Context) : Context := { c with handlers := c.handlers.map Handler.bare }

theorem Context.events_bare (c : Context) : c.bare.events = c.events := by
  rw [events, bare, List.map_map]
  rfl

theorem Emission.Renderer.factories_bare (r : Renderer) (c : Context) : r.factories c.bare = r.factories c := by
  rw [factories, Context.bare, List.map_map]
  rfl

theorem Emission.Renderer.slots_bare (r : Renderer) (c : Context) (isRoot : Bool) (t : IdTable) :
    r.slots c.bare isRoot t = r.slots c isRoot t := by
  simp only [slots, factories_bare]
  rfl

/-- Where handlers were declared does not matter to a fragment. -/
theorem Emission.Renderer.renderFragment_bare (r : Renderer) (c : Context) (t : IdTable) :
    r.renderFragment c.bare t = r.renderFragment c t := by
  simp only [renderFragment, render, Context.events_bare, slots_bare]
  rfl

namespace Assignment

/-- nor does it matter to the declarations of a snapshot -/
theorem declarations_bare (snapshot : List Context) :
    declarations (snapshot.map Context.bare) = declarations snapshot := by
  simp only [declarations, List.flatMap_map, Context.bare, List.map_map]
  rfl

end Assignment

/-! ## The fragments of a run -/

namespace Pipeline

variable {p : Pipeline} {registry : Registry} {live : List Context} {ds : List Diagnostic}

def fragmentsOf (p : Pipeline) (live : List Context) (t : IdTable) : Except Fault (List Fragment) :=
  live.mapM fun c => ({ config := p.config } : Emission.Renderer).renderFragment c t

theorem emit_eq_ok {g : Generation} (h : p.emit registry live ds = .ok g) :
    Assignment.assign registry.snapshot p.config.order BuiltinEvent.all = .ok g.table ∧
      p.fragmentsOf live g.table = .ok g.fragments ∧ g.diagnostics = ds := by
  obtain ⟨t, ht, h⟩ := bind_eq_ok h
  obtain ⟨fragments, hfragments, h⟩ := bind_eq_ok h
  cases h
  exact ⟨ht, hfragments, rfl⟩

theorem emit_of_fault {f : Fault}
    (h : Assignment.assign registry.snapshot p.config.order BuiltinEvent.all = .error f) :
    p.emit registry live ds = .error f := by
  rw [emit, h]
  rfl

theorem emit_of_table {t : IdTable} {fragments : List Fragment}
    (ht : Assignment.assign registry.snapshot p.config.order BuiltinEvent.all = .ok t)
    (hfragments : p.fragmentsOf live t = .ok fragments) : p.emit registry live ds = .ok ⟨fragments, ds, t⟩ := by
  rw [emit, ht]
  change (p.fragmentsOf live t >>= _) = _
  rw [hfragments]
  rfl

theorem exists_fragmentsOf {t : IdTable} (hpart : ∀ c ∈ live, Path.IsPart c.artifact)
    (h : ∀ c ∈ live, ∀ e ∈ c.events, e ∈ t.names.keys) : ∃ fragments, p.fragmentsOf live t = .ok fragments :=
  exists_mapM fun c hc => Emission.Renderer.exists_renderFragment (hpart c hc) (h c hc)

theorem fragmentsOf_bare (p : Pipeline) (live : List Context) (t : IdTable) :
    p.fragmentsOf (live.map Context.bare) t = p.fragmentsOf live t := by
  rw [fragmentsOf, fragmentsOf, List.mapM_map]
  refine congrArg (fun f => live.mapM f) (funext fun c => ?_)
  exact Emission.Renderer.renderFragment_bare _ c t

/-- **Short identifiers.** A run whose events leave every identifier short enough has the same fragments under a limit. -/
theorem fragmentsOf_within {t : IdTable} {digits : ℕ}
    (ht : Assignment.assign registry.snapshot p.config.order BuiltinEvent.all = .ok t)
    (hfew : (Assignment.eventNames registry.snapshot).length + 10 ≤ 10 ^ digits) :
    (live.mapM fun c => ({ config := p.config } : Emission.Renderer).renderFragment c t digits) = p.fragmentsOf live t := by
  refine congrArg (fun f => live.mapM f) (funext fun c => Emission.Renderer.renderFragment_of_fits fun e he => ?_)
  rintro _ ⟨⟩
  have hbuiltin : ∀ b ∈ BuiltinEvent.all, 0 < b.id ∧ b.id < firstDiscovered := by decide
  have hid : 0 < e.1 ∧ e.1 < firstDiscovered + (Assignment.eventNames registry.snapshot).length := by
    rcases (Assignment.mem_ids_keys ht).1 (List.mem_map_of_mem he) with hmem | ⟨hlow, hhigh⟩
    · obtain ⟨b, hb, hbe⟩ := List.mem_map.1 hmem
      have := hbuiltin b hb
      omega
    · exact ⟨lt_of_lt_of_le (by decide) hlow, hhigh⟩
  have hten : firstDiscovered = 10 := rfl
  omega

end Pipeline

end SignalWiring
