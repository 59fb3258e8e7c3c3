/-
The checks of settings.

Settings are checked one after the other, and the first check that they do not pass refuses them, in its own words. The
checks are those of `Check.all`, in this order: what a check asks for is `Check.Passes`, and what it refuses settings with is
`Check.fault`. Both look at the values of the settings, the last one that is written under any name of a setting.

- `Draft.get_set`, `ofPairs_known`, `ofPairs_unknown`: settings under known names are drafted with their values.
- `made_names`, `made_label` and so on: what each check gives; `Decides.bind`: one check, and then the others.
- `decides_ofPairs`: all of them, one after the other.
-/
import SignalWiring.Config
import SignalWiring.Proofs.Refusal

namespace SignalWiring

/-! ## Values of settings -/

namespace Draft

/-- the value of a setting; an order that has been read has its label again -/
def get (d : Draft) : ConfigKey → Setting
  | .container => d.container
  | .marker => d.marker
  | .suffix => d.suffix
  | .root => d.root
  | .dispatch => d.dispatch
  | .order =>
    match d.order with
    | .ok o => .text o.label
    | .error s => s
  | .generated => d.generated
  | .workers => d.workers

theorem get_set (d : Draft) (k j : ConfigKey) (s : Setting) : (d.set k s).get j = if j = k then s else d.get j := by
  cases k <;> cases j <;> rfl

end Draft

theorem IdOrder.ofLabel?_label (o : IdOrder) : IdOrder.ofLabel? o.label = some o := by
  cases o <;> decide

namespace Config

/-- the value that settings give to a key: the last one that is written under any of its names, or the usual one -/
def value (settings : List (String × Setting)) (k : ConfigKey) : Setting :=
  ((settings.filter fun e => ConfigKey.ofName? e.1 = some k).getLast?.map Prod.snd).getD (({} : Draft).get k)

def firstUnknown (settings : List (String × Setting)) : String :=
  ((settings.find? fun e => (ConfigKey.ofName? e.1).isNone).map Prod.fst).getD ""

section Values

variable {settings before : List (String × Setting)} {d : Draft}

theorem value_concat (settings : List (String × Setting)) (name : String) (s : Setting) (k : ConfigKey) :
    value (settings ++ [(name, s)]) k = if ConfigKey.ofName? name = some k then s else value settings k := by
  rw [value, List.filter_append]
  split
  · rename_i h
    rw [List.filter_cons_of_pos (by simpa using h), List.filter_nil, List.getLast?_concat]
    rfl
  · rename_i h
    rw [List.filter_cons_of_neg (by simpa using h), List.filter_nil, List.append_nil]
    rfl

/-- **Known names.** Settings under known names are drafted, each with its last value. -/
theorem ofPairs_known (hd : ∀ k, d.get k = value before k) (h : ∀ e ∈ settings, ConfigKey.ofName? e.1 ≠ none) :
    ∃ d', Draft.ofPairs settings d = .ok d' ∧ ∀ k, d'.get k = value (before ++ settings) k := by
  induction settings generalizing before d with
  | nil => exact ⟨d, rfl, by simpa using hd⟩
  | cons e rest ih =>
    obtain ⟨name, s⟩ := e
    obtain ⟨k, hk⟩ := Option.ne_none_iff_exists'.1 (h (name, s) List.mem_cons_self)
    have hset : ∀ j, (d.set k s).get j = value (before ++ [(name, s)]) j := by
      intro j
      rw [Draft.get_set, value_concat, hd, hk]
      simp only [Option.some.injEq, eq_comm]
    obtain ⟨d', hd', hvalue⟩ := ih hset fun x hx => h x (List.mem_cons_of_mem _ hx)
    refine ⟨d', ?_, ?_⟩
    · simp only [Draft.ofPairs, hk, hd']
    · rw [List.append_cons]
      exact hvalue

/-- The first unknown name refuses the settings. -/
theorem ofPairs_unknown (h : ¬∀ e ∈ settings, ConfigKey.ofName? e.1 ≠ none) :
    Draft.ofPairs settings d = .error (Fault.raised (Fault.forSetting (firstUnknown settings) "unknown key")) := by
  induction settings generalizing d with
  | nil => exact absurd (fun _ he => nomatch he) h
  | cons e rest ih =>
    obtain ⟨name, s⟩ := e
    cases hk : ConfigKey.ofName? name with
    | none => simp only [Draft.ofPairs, hk, firstUnknown, List.find?_cons, Option.isNone_none, Option.map_some,
        Option.getD_some]
    | some k =>
      have hrest : ¬∀ e ∈ rest, ConfigKey.ofName? e.1 ≠ none := by
        intro hall
        refine h fun e he => ?_
        rcases List.mem_cons.1 he with rfl | he
        · rw [hk]
          exact Option.some_ne_none k
        · exact hall e he
      have hfirst : firstUnknown ((name, s) :: rest) = firstUnknown rest := by
        simp only [firstUnknown, List.find?_cons, hk, Option.isNone_some]
      simp only [Draft.ofPairs, hk, hfirst]
      exact ih hrest

end Values

/-! ## The checks -/

/-- a check of settings -/
inductive Check where
  /-- every name is that of a setting -/
  | names
  /-- a text for the order is the label of one -/
  | label
  /-- the number of workers is missing or whole -/
  | count
  /-- a setting is an identifier -/
  | identifier (k : ConfigKey)
  /-- the attribute class is called so -/
  | ending
  /-- the root artifact holds something, and no slash -/
  | root
  /-- the order is one -/
  | order
  /-- the output marker starts with a dot and goes on -/
  | generated
  /-- the number of workers is missing or positive -/
  | workers

namespace Check

/-- every check, in the order in which they are made -/
def all : List Check :=
  [.names, .label, .count, .identifier .container, .identifier .marker, .identifier .suffix, .identifier .dispatch,
   .ending, .root, .order, .generated, .workers]

variable (settings : List (String × Setting))

/-- settings pass a check -/
def Passes : Check → Prop
  | .names => ∀ e ∈ settings, ConfigKey.ofName? e.1 ≠ none
  | .label => ∀ t, value settings .order = .text t → IdOrder.ofLabel? t ≠ none
  | .count => value settings .workers = .null ∨ ∃ n, value settings .workers = .whole n
  | .identifier k => ∃ t, value settings k = .text t ∧ Text.isIdentifier t = true
  | .ending => ∀ t, value settings .marker = .text t → "Attribute".toList.isSuffixOf t.toList = true
  | .root =>
    (value settings .root).holds = true ∧ (value settings .root).contains? '/' = some false ∧
      (value settings .root).contains? '\\' = some false
  | .order => ∃ t, value settings .order = .text t
  | .generated => ∃ t, value settings .generated = .text t ∧ t.toList.head? = some '.' ∧ 2 ≤ t.length
  | .workers => ∀ n, value settings .workers = .whole n → 1 ≤ n

/-- what settings are refused with that do not pass a check -/
def fault : Check → Fault
  | .names => Fault.raised (Fault.forSetting (firstUnknown settings) "unknown key")
  | .label => Draft.refuse .order s!"expected one of sorted, discovery, got {(value settings .order).shown}"
  | .count => Draft.refuseShown .workers "must be an integer" (value settings .workers)
  | .identifier k => Draft.refuseShown k "must be a C# identifier" (value settings k)
  | .ending => Draft.refuse .marker s!"must end with 'Attribute', got {(value settings .marker).shown}"
  | .root =>
    if (value settings .root).holds = true ∧ (value settings .root).contains? '/' = none then .mistyped
    else Draft.refuseShown .root "must be a bare file name" (value settings .root)
  | .order => Draft.refuse .order s!"must be IdOrdering, got {(value settings .order).typeName}"
  | .generated =>
    match value settings .generated with
    | .text t => Draft.refuseShown .generated "must look like '.g'" (.text t)
    | _ => .memberless
  | .workers => Draft.refuseShown .workers "must be >= 1" (value settings .workers)

end Check

/-- `check` is the first of these checks that settings do not pass -/
inductive Stops (settings : List (String × Setting)) : List Check → Check → Prop where
  | here {check : Check} {rest : List Check} (fails : ¬check.Passes settings) : Stops settings (check :: rest) check
  | later {first check : Check} {rest : List Check} (passes : first.Passes settings) (stops : Stops settings rest check) :
      Stops settings (first :: rest) check

theorem Stops.unique {settings : List (String × Setting)} {checks : List Check} {check other : Check}
    (h : Stops settings checks check) (h' : Stops settings checks other) : check = other := by
  induction h with
  | here fails =>
    cases h' with
    | here _ => rfl
    | later passes _ => exact absurd passes fails
  | later passes _ ih =>
    cases h' with
    | here fails => exact absurd passes fails
    | later _ stops => exact ih stops

theorem Stops.not_all {settings : List (String × Setting)} {checks : List Check} {check : Check}
    (h : Stops settings checks check) : ¬∀ c ∈ checks, c.Passes settings := by
  induction h with
  | here fails => exact fun hall => fails (hall _ List.mem_cons_self)
  | later _ _ ih => exact fun hall => ih fun c hc => hall c (List.mem_cons_of_mem _ hc)

/-- the configuration has the values of the settings -/
structure Holds (settings : List (String × Setting)) (c : Config) : Prop where
  container : value settings .container = .text c.container
  marker : value settings .marker = .text c.marker
  suffix : value settings .suffix = .text c.suffix
  root : value settings .root = c.root
  dispatch : value settings .dispatch = .text c.dispatch
  order : ∃ t, value settings .order = .text t ∧ IdOrder.ofLabel? t = some c.order
  generated : value settings .generated = .text c.generated
  workers : value settings .workers = c.workers

/-- what becomes of settings when these checks are made: the first one that they do not pass refuses them, and else there is
a configuration with their values -/
def Decides (settings : List (String × Setting)) (checks : List Check) (x : Except Fault Config) : Prop :=
  (∃ check, Stops settings checks check ∧ x = .error (check.fault settings)) ∨
    (∀ check ∈ checks, check.Passes settings) ∧ ∃ c, x = .ok c ∧ Holds settings c

/-- what a check gives: its fault, or something with `P` -/
inductive Made (settings : List (String × Setting)) (check : Check) {α : Type} (P : α → Prop) : Except Fault α → Prop where
  | failed (fails : ¬check.Passes settings) : Made settings check P (.error (check.fault settings))
  | passed (a : α) (passes : check.Passes settings) (holds : P a) : Made settings check P (.ok a)

section Walk

variable {settings : List (String × Setting)} {check : Check} {rest : List Check} {α : Type} {P : α → Prop}

theorem Decides.of_failed (fails : ¬check.Passes settings) :
    Decides settings (check :: rest) (.error (check.fault settings)) := Or.inl ⟨check, .here fails, rfl⟩

theorem Decides.of_passed {x : Except Fault Config} (passes : check.Passes settings) (h : Decides settings rest x) :
    Decides settings (check :: rest) x := by
  rcases h with ⟨later, stops, hx⟩ | ⟨hall, hc⟩
  · exact Or.inl ⟨later, .later passes stops, hx⟩
  · exact Or.inr ⟨List.forall_mem_cons.2 ⟨passes, hall⟩, hc⟩

/-- One check, and then the others. -/
theorem Decides.bind {x : Except Fault α} {f : α → Except Fault Config} (hx : Made settings check P x)
    (hf : ∀ a, P a → Decides settings rest (f a)) : Decides settings (check :: rest) (x >>= f) := by
  cases hx with
  | failed fails => exact .of_failed fails
  | passed a passes holds => exact .of_passed passes (hf a holds)

/-! ### What each check gives -/

theorem made_names : Made settings .names (fun d : Draft => ∀ k, d.get k = value settings k)
    (Draft.ofPairs settings {}) := by
  by_cases h : ∀ e ∈ settings, ConfigKey.ofName? e.1 ≠ none
  · have husual : ∀ k, ({} : Draft).get k = value [] k := fun _ => rfl
    obtain ⟨d, hd, hvalue⟩ := ofPairs_known husual h
    rw [hd]
    exact .passed d h hvalue
  · rw [ofPairs_unknown h]
    exact .failed h

/-- a draft with the values of the settings, its order read -/
structure Read (settings : List (String × Setting)) (d : Draft) : Prop where
  get : ∀ k, k ≠ .order → d.get k = value settings k
  order : (∃ t o, value settings .order = .text t ∧ IdOrder.ofLabel? t = some o ∧ d.order = .ok o) ∨
    (∀ t, value settings .order ≠ .text t) ∧ d.order = .error (value settings .order)

theorem made_label {d : Draft} (hd : ∀ k, d.get k = value settings k) :
    Made settings .label (Read settings) d.readOrder := by
  have horder := hd .order
  unfold Draft.readOrder
  split
  · rename_i t ht
    simp only [Draft.get, ht] at horder
    split
    · rename_i o ho
      refine .passed _ (fun t' ht' => ?_) ⟨fun k hk => ?_, Or.inl ⟨t, o, horder.symm, ho, rfl⟩⟩
      · rw [← horder] at ht'
        cases ht'
        rw [ho]
        exact Option.some_ne_none o
      · rw [← hd k]
        cases k with
        | order => exact absurd rfl hk
        | _ => rfl
    · rename_i hnone
      have hfault : Draft.refuse .order s!"expected one of sorted, discovery, got {Text.quote t}" =
          Check.label.fault settings := by
        rw [Check.fault, ← horder]
        rfl
      rw [hfault]
      exact .failed fun hpasses => hpasses t horder.symm hnone
  · rename_i hnot
    cases ho : d.order with
    | ok o =>
      simp only [Draft.get, ho] at horder
      refine .passed d (fun t ht => ?_) ⟨fun k _ => hd k, Or.inl ⟨o.label, o, horder.symm, o.ofLabel?_label, ho⟩⟩
      rw [← horder] at ht
      cases ht
      rw [o.ofLabel?_label]
      exact Option.some_ne_none o
    | error s =>
      simp only [Draft.get, ho] at horder
      have hnone : ∀ t, value settings .order ≠ .text t := by
        intro t ht
        rw [← horder] at ht
        exact hnot t (ht ▸ ho)
      exact .passed d (fun t ht => absurd ht (hnone t)) ⟨fun k _ => hd k, Or.inr ⟨hnone, horder ▸ ho⟩⟩

theorem made_count {d : Draft} (hd : d.workers = value settings .workers) :
    Made settings .count (fun _ => Check.count.Passes settings) d.readWorkers := by
  unfold Draft.readWorkers
  rw [hd]
  split
  · rename_i h
    exact .passed () (Or.inl h) (Or.inl h)
  · rename_i n h
    exact .passed () (Or.inr ⟨n, h⟩) (Or.inr ⟨n, h⟩)
  · rename_i hnull hwhole
    exact .failed fun hpasses => hpasses.elim hnull fun ⟨n, hn⟩ => hwhole n hn

theorem made_identifier {k : ConfigKey} {s : Setting} (hs : s = value settings k) :
    Made settings (.identifier k) (fun t => value settings k = .text t.1) (Draft.identifier k s) := by
  subst hs
  unfold Draft.identifier
  split
  · rename_i t ht
    split
    · rename_i h
      have hpasses : (Check.identifier k).Passes settings := ⟨t, ht, h⟩
      exact .passed _ hpasses ht
    · rename_i h
      have hfails : ¬(Check.identifier k).Passes settings := by
        rintro ⟨t', ht', h'⟩
        rw [ht] at ht'
        cases ht'
        exact h h'
      exact .failed hfails
  · rename_i hnot
    have hfails : ¬(Check.identifier k).Passes settings := fun ⟨t, ht, _⟩ => hnot t ht
    exact .failed hfails

/-- one character can be looked for in a value when another one can -/
theorem contains?_eq_none {s : Setting} {c : Char} (h : s.contains? c = none) (d : Char) : s.contains? d = none := by
  cases s with
  | text t => cases h
  | list items => cases h
  | table entries => cases h
  | _ => rfl

theorem made_root {s : Setting} (hs : s = value settings .root) :
    Made settings .root (fun _ => True) (Draft.checkRoot s) := by
  subst hs
  unfold Draft.checkRoot
  -- what refuses a value in which a slash can be looked for, or which holds nothing
  have hshown : ∀ h : ¬((value settings .root).holds = true ∧ (value settings .root).contains? '/' = none),
      Check.root.fault settings = Draft.refuseShown .root "must be a bare file name" (value settings .root) :=
    fun h => if_neg h
  by_cases hholds : (value settings .root).holds = true
  · simp only [hholds, if_true]
    split
    · rename_i slash backslash hslash hbackslash
      split
      · rename_i hfound
        rw [← hshown fun h => by rw [hslash] at h; cases h.2]
        refine .failed fun hpasses => ?_
        rw [Check.Passes, hslash, hbackslash] at hpasses
        simp only [Option.some.injEq] at hpasses
        rw [hpasses.2.1, hpasses.2.2] at hfound
        cases hfound
      · rename_i hfound
        rw [Bool.not_eq_true, Bool.or_eq_false_iff] at hfound
        exact .passed () ⟨hholds, hfound.1 ▸ hslash, hfound.2 ▸ hbackslash⟩ trivial
    · rename_i hnone
      have hslash : (value settings .root).contains? '/' = none := by
        cases hs : (value settings .root).contains? '/' with
        | none => rfl
        | some slash =>
          cases hb : (value settings .root).contains? '\\' with
          | none => rw [contains?_eq_none hb] at hs; cases hs
          | some backslash => exact (hnone slash backslash hs hb).elim
      have hfault : Check.root.fault settings = .mistyped := if_pos ⟨hholds, hslash⟩
      rw [← hfault]
      refine .failed fun hpasses => ?_
      rw [Check.Passes, hslash] at hpasses
      cases hpasses.2.1
  · simp only [hholds]
    rw [← hshown fun h => hholds h.1]
    exact .failed fun hpasses => hholds hpasses.1

theorem made_generated {s : Setting} (hs : s = value settings .generated) :
    Made settings .generated (fun t => value settings .generated = .text t.1) (Draft.checkGenerated s) := by
  subst hs
  unfold Draft.checkGenerated
  split
  · rename_i t ht
    split
    · rename_i h
      have hpasses : Check.generated.Passes settings := ⟨t, ht, h⟩
      exact .passed _ hpasses ht
    · rename_i h
      have hfault : Check.generated.fault settings = Draft.refuseShown .generated "must look like '.g'" (.text t) := by
        rw [Check.fault, ht]
      rw [ht, ← hfault]
      refine .failed ?_
      rintro ⟨t', ht', h'⟩
      rw [ht] at ht'
      cases ht'
      exact h h'
  · rename_i hnot
    have hfault : Check.generated.fault settings = .memberless := by
      rw [Check.fault]
      split
      · rename_i t ht
        exact (hnot t ht).elim
      · rfl
    rw [← hfault]
    refine .failed ?_
    rintro ⟨t, ht, -⟩
    exact hnot t ht

theorem made_workers {s : Setting} (hs : s = value settings .workers) (hcount : Check.count.Passes settings) :
    Made settings .workers (fun _ => True) (Draft.checkWorkers s) := by
  subst hs
  rcases hcount with hnull | ⟨n, hn⟩
  · rw [hnull]
    exact .passed () (fun n hn => by rw [hnull] at hn; cases hn) trivial
  · have hpasses : Check.workers.Passes settings ↔ 1 ≤ n := by
      constructor
      · exact fun h => h n hn
      · intro h m hm
        rw [hn] at hm
        cases hm
        exact h
    have hfault : Check.workers.fault settings = Draft.refuseShown .workers "must be >= 1" (.whole n) := by
      rw [Check.fault, hn]
    rw [hn]
    simp only [Draft.checkWorkers, Setting.belowOne?]
    by_cases hpos : 1 ≤ n
    · rw [decide_eq_false (by omega)]
      exact .passed () (hpasses.2 hpos) trivial
    · rw [decide_eq_true (by omega), ← hfault]
      exact .failed fun h => hpos (hpasses.1 h)

/-! ### One after the other -/

theorem decides_accept {d : Draft} (hd : Read settings d) (hcount : Check.count.Passes settings) :
    Decides settings [.identifier .container, .identifier .marker, .identifier .suffix, .identifier .dispatch, .ending,
      .root, .order, .generated, .workers] d.accept := by
  unfold Draft.accept
  refine .bind (made_identifier (hd.get .container (by decide))) fun container hcontainer => ?_
  refine .bind (made_identifier (hd.get .marker (by decide))) fun marker hmarker => ?_
  refine .bind (made_identifier (hd.get .suffix (by decide))) fun suffix hsuffix => ?_
  refine .bind (made_identifier (hd.get .dispatch (by decide))) fun dispatch hdispatch => ?_
  split
  · rename_i hending
    refine .of_passed (fun t ht => ?_) ?_
    · rw [hmarker] at ht
      cases ht
      exact hending
    refine .bind (made_root (hd.get .root (by decide))) fun _ _ => ?_
    rcases hd.order with ⟨t, o, ht, ho, hdraft⟩ | ⟨hnone, hdraft⟩
    · rw [hdraft]
      refine .of_passed ⟨t, ht⟩ ?_
      refine .bind (made_generated (hd.get .generated (by decide))) fun generated hgenerated => ?_
      refine .bind (made_workers (hd.get .workers (by decide)) hcount) fun _ _ => ?_
      refine Or.inr ⟨fun _ h => (nomatch h), _, rfl, ?_⟩
      exact ⟨hcontainer, hmarker, hsuffix, (hd.get .root (by decide)).symm, hdispatch, ⟨t, ht, ho⟩, hgenerated,
        (hd.get .workers (by decide)).symm⟩
    · rw [hdraft]
      have hfails : ¬Check.order.Passes settings := fun ⟨t, ht⟩ => hnone t ht
      exact .of_failed hfails
  · rename_i hending
    have hfault : Check.ending.fault settings =
        Draft.refuse .marker s!"must end with 'Attribute', got {Text.quote marker.1}" := by
      rw [Check.fault, hmarker]
      rfl
    rw [← hfault]
    exact .of_failed fun hpasses => hending (hpasses marker.1 hmarker)

/-- **The checks of settings.** They are made one after the other, and the first one that settings do not pass refuses them. -/
theorem decides_ofPairs (settings : List (String × Setting)) : Decides settings Check.all (Config.ofPairs settings) := by
  unfold Config.ofPairs
  refine .bind made_names fun d hd => ?_
  refine .bind (made_label hd) fun d hd => ?_
  refine .bind (made_count (hd.get .workers (by decide))) fun _ hcount => ?_
  exact decides_accept hd hcount

end Walk

end Config

end SignalWiring
