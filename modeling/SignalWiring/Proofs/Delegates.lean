/-
What a delegate declaration means.

A delegate that does not bear the marker means nothing. One that does is a handler, unless it has a flaw, and then it is
one warning. The flaws have an order, and the first one that a delegate has is the one that is reported: it cannot be
resolved, its name is not that of an event, a parameter has no name, a parameter is declared twice. A delegate without
a flaw passes every check that a handler makes on its names.

- `namesEvent_iff`: a name is that of an event when it is something with the suffix after it.
- `Accepts`, `Flawed`, `Flaw.report`: what makes a handler, what is wrong otherwise, and what is then reported.
- `accepts_or_flawed`, `Flawed.unique`: one or the other, and one flaw at most.
- `analyze_of_unmarked`, `analyze_of_flawed`, `analyze_of_accepts`: the three outcomes.
- `analyze_exact`: what comes of a legible delegate.
-/
import SignalWiring.Proofs.Scanning
import SignalWiring.Proofs.Texts

namespace SignalWiring

/-! ## Places -/

/-- a node whose row and column are not negative has a location, in lines that count from one -/
theorem Tree.exists_location {t : Tree} (hrow : 0 ≤ t.row) (hcolumn : 0 ≤ t.column) (path : Path) :
    ∃ location, t.location (some path) = .ok location ∧ location.file = path ∧ (location.line : Int) = t.row + 1 ∧
      (location.column : Int) = t.column := by
  have hpoint := Location.ofPoint_natCast path t.row.toNat t.column.toNat
  rw [Int.toNat_of_nonneg hrow, Int.toNat_of_nonneg hcolumn] at hpoint
  refine ⟨_, hpoint, rfl, ?_, Int.toNat_of_nonneg hcolumn⟩
  rw [Nat.cast_add, Int.toNat_of_nonneg hrow, Nat.cast_one]

/-! ## Names -/

/-- A name is that of an event when it is something with the suffix after it. -/
theorem Marking.namesEvent_iff {m : Marking} {name : String} :
    m.namesEvent name = true ↔ ∃ event, event ≠ "" ∧ name = event ++ m.suffix := by
  rw [namesEvent, Bool.and_eq_true, decide_eq_true_eq, List.isSuffixOf_iff_suffix]
  constructor
  · rintro ⟨⟨front, hfront⟩, hne⟩
    have hname : name = String.ofList front ++ m.suffix := by
      apply String.toList_injective
      rw [String.toList_append, String.toList_ofList, hfront]
    refine ⟨String.ofList front, fun hempty => hne ?_, hname⟩
    rw [hname, hempty, String.empty_append]
  · rintro ⟨event, hevent, rfl⟩
    refine ⟨?_, fun hsame => hevent ?_⟩
    · rw [String.toList_append]
      exact List.suffix_append _ _
    · have hlength := congrArg String.length hsame
      rw [String.length_append, Nat.add_eq_right, String.length_eq_zero_iff] at hlength
      exact hlength

theorem stripSuffix_append {suffix : String} (hsuffix : suffix ≠ "") (event : String) :
    stripSuffix (event ++ suffix) suffix = .ok event := by
  have hcut : (event.toList ++ suffix.toList).take ((event.toList ++ suffix.toList).length - suffix.toList.length) =
      event.toList := by
    rw [List.length_append, Nat.add_sub_cancel, List.take_left]
  rw [stripSuffix, if_neg hsuffix, Text.dropSuffix?, String.toList_append,
    if_pos (List.isSuffixOf_iff_suffix.2 (List.suffix_append _ _)), hcut]
  change Except.ok (String.ofList event.toList) = _
  rw [String.ofList_toList]

/-- The name of an event with the suffix after it makes a handler, if the parameters have different names. -/
theorem Handler.exists_ofName {suffix event : String} {parameters : List String} (location : Option Location)
    (hsuffix : suffix ≠ "") (hevent : event ≠ "") (hnamed : ∀ p ∈ parameters, p ≠ "") (hdistinct : parameters.Nodup) :
    ∃ h, Handler.ofName (event ++ suffix) suffix parameters location = .ok h ∧ h.name = event ++ suffix ∧
      h.event = event ∧ h.parameters = parameters ∧ h.location = location := by
  have hprefix : event.toList <+: (event ++ suffix).toList := by
    rw [String.toList_append]
    exact List.prefix_append _ _
  refine ⟨⟨event ++ suffix, event, parameters, location, hevent, hprefix, hdistinct, hnamed⟩, ?_, rfl, rfl, rfl, rfl⟩
  rw [Handler.ofName, stripSuffix_append hsuffix]
  change Handler.make (event ++ suffix) event parameters location = _
  rw [Handler.make, if_neg (append_ne_empty_left hevent), dif_neg hevent, dif_pos hprefix, dif_pos hdistinct,
    dif_pos hnamed]

/-- the first text of the list that occurs before -/
def FirstRepeat (names : List String) (n : String) : Prop :=
  ∃ before after, names = before ++ n :: after ∧ before.Nodup ∧ n ∈ before

theorem firstRepeated_of_mem {seen names : List String} {n : String} (after : List String) (hnodup : names.Nodup)
    (hnew : ∀ m ∈ names, m ∉ seen) (hn : n ∈ names ∨ n ∈ seen) : firstRepeated seen (names ++ n :: after) = some n := by
  induction names generalizing seen with
  | nil =>
    rw [List.nil_append, firstRepeated, List.contains_eq_mem, if_pos]
    exact decide_eq_true (hn.resolve_left List.not_mem_nil)
  | cons m rest ih =>
    obtain ⟨hm, hrest⟩ := List.nodup_cons.1 hnodup
    have hstep : firstRepeated seen (m :: (rest ++ n :: after)) = firstRepeated (m :: seen) (rest ++ n :: after) := by
      rw [firstRepeated, List.contains_eq_mem, if_neg]
      simpa using hnew m List.mem_cons_self
    rw [List.cons_append, hstep]
    refine ih hrest (fun x hx hseen => ?_) ?_
    · rcases List.mem_cons.1 hseen with rfl | hseen
      · exact hm hx
      · exact hnew x (List.mem_cons_of_mem _ hx) hseen
    · rcases hn with hn | hn
      · rcases List.mem_cons.1 hn with rfl | hn
        · exact Or.inr List.mem_cons_self
        · exact Or.inl hn
      · exact Or.inr (List.mem_cons_of_mem _ hn)

theorem firstRepeated_eq_some_iff {names : List String} {n : String} :
    firstRepeated [] names = some n ↔ FirstRepeat names n := by
  constructor
  · intro h
    obtain ⟨before, after, hnames, hnodup, -, hn⟩ := firstRepeated_eq_some h
    exact ⟨before, after, hnames, hnodup, hn.resolve_right List.not_mem_nil⟩
  · rintro ⟨before, after, rfl, hnodup, hn⟩
    exact firstRepeated_of_mem after hnodup (fun _ _ => List.not_mem_nil) (Or.inl hn)

/-! ## Delegates -/

/-- the delegate has a name and a list of parameters, and there is no error in it -/
structure Tree.Resolved (t : Tree) : Prop where
  named : t.writtenField "name" ≠ ""
  listed : t.fieldNamed? "parameters" ≠ none
  sound : ¬(t.errorFlag = some true ∨ t.errorFlag = none ∧ ∃ n ∈ t.preorder, n.isFault = true)

/-- the names of the parameters of a delegate, in the order of declaration -/
def Tree.delegateParameters (t : Tree) : List String :=
  ((t.fieldNamed? "parameters").map Tree.writtenParameters).getD []

namespace Marking

/-- what is wrong with a marked delegate -/
inductive Flaw where
  /-- it has no name or no parameters, or there is an error in it -/
  | unresolved
  /-- its name is not that of an event with the suffix after it -/
  | misnamed
  /-- a parameter has no name -/
  | nameless
  /-- the parameter is declared a second time -/
  | repeated (parameter : String)

variable (m : Marking) {t : Tree} {path : Path} {location : Location}

/-- the kind of diagnostic that a flaw leads to -/
def Flaw.kind : Flaw → DiagnosticKind
  | .unresolved | .nameless => .unresolvedSymbol
  | .misnamed | .repeated _ => .malformedDeclaration

/-- what is said of a delegate called `name` -/
def Flaw.reason (name : String) : Flaw → String
  | .unresolved => "delegate declaration could not be resolved"
  | .misnamed => s!"[{m.shortMarker}] delegate '{name}' must be named <Event>{m.suffix}"
  | .nameless => s!"parameter of '{name}' has no name"
  | .repeated p => s!"delegate '{name}' declares parameter '{p}' twice"

/-- the warning about a flaw of a delegate called `name` -/
def Flaw.report (hpath : path.name ≠ "") (location : Location) (name : String) (f : Flaw) : Diagnostic where
  kind := f.kind
  severity := .warning
  message := s!"{f.reason m name}, skipped"
  artifact := path.name
  location := some location
  subject := if name = "" then none else some name
  message_ne := append_ne_empty_right (by decide)
  artifact_ne := hpath

/-- the delegate can be resolved, its name is that of an event, and its parameters have different names -/
structure Accepts (t : Tree) : Prop where
  resolved : t.Resolved
  event : ∃ event, event ≠ "" ∧ t.writtenField "name" = event ++ m.suffix
  named : ∀ p ∈ t.delegateParameters, p ≠ ""
  distinct : t.delegateParameters.Nodup

/-- the first flaw of a delegate -/
def Flawed (t : Tree) : Flaw → Prop
  | .unresolved => ¬t.Resolved
  | .misnamed => t.Resolved ∧ ¬∃ event, event ≠ "" ∧ t.writtenField "name" = event ++ m.suffix
  | .nameless => t.Resolved ∧ (∃ event, event ≠ "" ∧ t.writtenField "name" = event ++ m.suffix) ∧
      ∃ p ∈ t.delegateParameters, p = ""
  | .repeated p => t.Resolved ∧ (∃ event, event ≠ "" ∧ t.writtenField "name" = event ++ m.suffix) ∧
      (∀ p ∈ t.delegateParameters, p ≠ "") ∧ FirstRepeat t.delegateParameters p

/-- the handler that a delegate declares -/
structure Declares (t : Tree) (location : Location) (h : Handler) : Prop where
  name : h.name = t.writtenField "name"
  event : h.name = h.event ++ m.suffix
  parameters : h.parameters = t.delegateParameters
  location : h.location = some location

/-! ### Handler or flaw -/

theorem accepts_or_flawed (t : Tree) : m.Accepts t ∨ ∃ f, m.Flawed t f := by
  by_cases hresolved : t.Resolved
  · by_cases hevent : ∃ event, event ≠ "" ∧ t.writtenField "name" = event ++ m.suffix
    · by_cases hnamed : ∀ p ∈ t.delegateParameters, p ≠ ""
      · cases hrepeat : firstRepeated [] t.delegateParameters with
        | none => exact Or.inl ⟨hresolved, hevent, hnamed, (firstRepeated_eq_none_iff.1 hrepeat).1⟩
        | some p => exact Or.inr ⟨.repeated p, hresolved, hevent, hnamed, firstRepeated_eq_some_iff.1 hrepeat⟩
      · push Not at hnamed
        exact Or.inr ⟨.nameless, hresolved, hevent, hnamed⟩
    · exact Or.inr ⟨.misnamed, hresolved, hevent⟩
  · exact Or.inr ⟨.unresolved, hresolved⟩

variable {m}

theorem Accepts.not_flawed (h : m.Accepts t) (f : Flaw) : ¬m.Flawed t f := by
  cases f with
  | unresolved => exact fun hflaw => hflaw h.resolved
  | misnamed => exact fun hflaw => hflaw.2 h.event
  | nameless =>
    rintro ⟨-, -, p, hp, hempty⟩
    exact h.named p hp hempty
  | repeated p =>
    rintro ⟨-, -, -, hrepeat⟩
    rw [← firstRepeated_eq_some_iff, firstRepeated_eq_none_iff.2 ⟨h.distinct, fun _ _ => List.not_mem_nil⟩] at hrepeat
    cases hrepeat

/-- a delegate has one first flaw at most -/
theorem Flawed.unique {f g : Flaw} (hf : m.Flawed t f) (hg : m.Flawed t g) : f = g := by
  -- of two different flaws the later one asks for what the earlier one denies
  cases f <;> cases g <;> simp only [Flawed, ← firstRepeated_eq_some_iff] at hf hg <;> grind

/-! ### Outcomes -/

section Outcomes

variable (ht : t.Legible) (hlocation : t.location (some path) = .ok location)

include ht hlocation

theorem analyze_of_unmarked (hmarked : ¬t.Bears m.marker) : m.analyze (some t) (some path) = .ok .ignored := by
  rw [analyze, hlocation, ht.fieldSource_eq, ht.isMarked_eq m.marker_ne, decide_eq_false hmarked]
  rfl

/-- a marked delegate that cannot be resolved -/
theorem analyze_of_unresolved (hmarked : t.Bears m.marker) (hresolved : ¬t.Resolved) :
    m.analyze (some t) (some path) =
      unresolved path location (t.writtenField "name") "delegate declaration could not be resolved" := by
  rw [analyze, hlocation, ht.fieldSource_eq, ht.isMarked_eq m.marker_ne, decide_eq_true hmarked]
  cases hparameters : t.fieldNamed? "parameters" with
  | none => rfl
  | some parameters =>
    change (if _ then _ else _) = _
    rw [if_pos]
    by_contra hpassed
    simp only [Bool.or_eq_true, decide_eq_true_eq, not_or, Tree.hasFaults_iff] at hpassed
    exact hresolved ⟨hpassed.1, by simp [hparameters], not_or.2 hpassed.2⟩

/-- a marked delegate that can be resolved is judged by its name and its parameters -/
theorem analyze_of_resolved (hmarked : t.Bears m.marker) (hresolved : t.Resolved) : ∃ parameters,
    t.delegateParameters = parameters.writtenParameters ∧ parameters.Legible ∧
    m.analyze (some t) (some path) =
      if !m.namesEvent (t.writtenField "name") then
        malformed path location (t.writtenField "name") (Flaw.misnamed.reason m (t.writtenField "name"))
      else m.readSignature path location (t.writtenField "name") parameters := by
  obtain ⟨parameters, hparameters⟩ := Option.ne_none_iff_exists'.1 hresolved.listed
  refine ⟨parameters, by rw [Tree.delegateParameters, hparameters]; rfl,
    ht.child (List.mem_of_find?_eq_some hparameters), ?_⟩
  rw [analyze, hlocation, ht.fieldSource_eq, ht.isMarked_eq m.marker_ne, decide_eq_true hmarked, hparameters]
  change (if _ then _ else _) = _
  rw [if_neg]
  · rfl
  · simp only [Bool.or_eq_true, decide_eq_true_eq, not_or, Tree.hasFaults_iff]
    exact ⟨hresolved.named, not_or.1 hresolved.sound⟩

/-- a delegate that is named for an event is judged by its parameters -/
theorem analyze_of_named (hmarked : t.Bears m.marker) (hresolved : t.Resolved)
    (hevent : ∃ event, event ≠ "" ∧ t.writtenField "name" = event ++ m.suffix) :
    m.analyze (some t) (some path) =
      if "" ∈ t.delegateParameters then
        unresolved path location (t.writtenField "name") (Flaw.nameless.reason m (t.writtenField "name"))
      else
        match firstRepeated [] t.delegateParameters with
        | some p => malformed path location (t.writtenField "name") ((Flaw.repeated p).reason m (t.writtenField "name"))
        | none => (Handler.ofName (t.writtenField "name") m.suffix t.delegateParameters (some location)).map
            Outcome.record := by
  obtain ⟨parameters, hwritten, hlegible, hanalyze⟩ := analyze_of_resolved (m := m) ht hlocation hmarked hresolved
  rw [hanalyze, namesEvent_iff.2 hevent, if_neg (by decide), readSignature, hlegible.parameterNames_eq, hwritten]
  change (if _ then _ else _) = _
  rw [List.contains_eq_mem]
  simp only [decide_eq_true_eq]
  rfl

end Outcomes

section Reports

variable (hpath : path.name ≠ "") (location : Location) {name : String} {f : Flaw}

theorem unresolved_eq (hkind : f.kind = .unresolvedSymbol) :
    unresolved path location name (f.reason m name) = .ok (.problem (f.report m hpath location name)) := by
  rw [unresolved, Diagnostic.make_eq_ok (append_ne_empty_right (by decide)) hpath, Flaw.report]
  simp only [hkind]
  rfl

theorem malformed_eq (hname : name ≠ "") (hkind : f.kind = .malformedDeclaration) :
    malformed path location name (f.reason m name) = .ok (.problem (f.report m hpath location name)) := by
  rw [malformed, Diagnostic.make_eq_ok (append_ne_empty_right (by decide)) hpath, Flaw.report]
  simp only [hkind, if_neg hname]
  rfl

end Reports

/-- **A flaw.** A marked delegate with a flaw comes to the warning about it. -/
theorem analyze_of_flawed (ht : t.Legible) (hlocation : t.location (some path) = .ok location) (hpath : path.name ≠ "")
    (hmarked : t.Bears m.marker) {f : Flaw} (hf : m.Flawed t f) :
    m.analyze (some t) (some path) = .ok (.problem (f.report m hpath location (t.writtenField "name"))) := by
  cases f with
  | unresolved =>
    rw [analyze_of_unresolved ht hlocation hmarked hf]
    exact unresolved_eq (f := .unresolved) hpath location rfl
  | misnamed =>
    obtain ⟨hresolved, hevent⟩ := hf
    obtain ⟨parameters, -, -, hanalyze⟩ := analyze_of_resolved ht hlocation hmarked hresolved
    rw [hanalyze, if_pos (by simpa using mt namesEvent_iff.1 hevent)]
    exact malformed_eq (f := .misnamed) hpath location hresolved.named rfl
  | nameless =>
    obtain ⟨hresolved, hevent, p, hp, rfl⟩ := hf
    rw [analyze_of_named ht hlocation hmarked hresolved hevent, if_pos hp]
    exact unresolved_eq (f := .nameless) hpath location rfl
  | repeated p =>
    obtain ⟨hresolved, hevent, hnamed, hrepeat⟩ := hf
    rw [analyze_of_named ht hlocation hmarked hresolved hevent, if_neg fun hempty => hnamed "" hempty rfl,
      firstRepeated_eq_some_iff.2 hrepeat]
    exact malformed_eq (f := .repeated p) hpath location hresolved.named rfl

/-- **No flaw.** A marked delegate that is accepted comes to the handler that it declares. -/
theorem analyze_of_accepts (ht : t.Legible) (hlocation : t.location (some path) = .ok location)
    (hmarked : t.Bears m.marker) (h : m.Accepts t) :
    ∃ handler, m.analyze (some t) (some path) = .ok (.record handler) ∧ m.Declares t location handler := by
  obtain ⟨event, hevent, hname⟩ := h.event
  obtain ⟨handler, hmake, hhandler, hstart, hparameters, hplace⟩ :=
    Handler.exists_ofName (some location) m.suffix_ne hevent h.named h.distinct
  refine ⟨handler, ?_, hhandler.trans hname.symm, hhandler.trans (hstart ▸ rfl), hparameters, hplace⟩
  rw [analyze_of_named ht hlocation hmarked h.resolved h.event, if_neg fun hempty => h.named "" hempty rfl,
    firstRepeated_eq_none_iff.2 ⟨h.distinct, fun _ _ => List.not_mem_nil⟩, hname, hmake]
  rfl

/-- **Delegates.** A legible delegate whose position is not negative comes to an outcome: it is ignored exactly when it
does not bear the marker, it is a handler exactly when it does and is accepted, and otherwise it is the warning about its
first flaw. The handler has the delegate's name, which is its event with the suffix after it, and the parameters in the
order of declaration. -/
theorem analyze_exact (m : Marking) {t : Tree} (ht : t.Legible) (hrow : 0 ≤ t.row) (hcolumn : 0 ≤ t.column) {path : Path}
    (hpath : path.name ≠ "") : ∃ o location, m.analyze (some t) (some path) = .ok o ∧
      (location.file = path ∧ (location.line : Int) = t.row + 1 ∧ (location.column : Int) = t.column) ∧
      (o = .ignored ↔ ¬t.Bears m.marker) ∧
      ((∃ h, o = .record h) ↔ t.Bears m.marker ∧ m.Accepts t) ∧
      (∀ h, o = .record h → m.Declares t location h) ∧
      (∀ d, o = .problem d ↔ t.Bears m.marker ∧
        ∃ f, m.Flawed t f ∧ d = f.report m hpath location (t.writtenField "name")) := by
  obtain ⟨location, hlocation, hplace⟩ := Tree.exists_location hrow hcolumn path
  by_cases hmarked : t.Bears m.marker
  · rcases m.accepts_or_flawed t with haccepts | ⟨f, hf⟩
    · obtain ⟨h, hanalyze, hdeclares⟩ := analyze_of_accepts ht hlocation hmarked haccepts
      refine ⟨.record h, location, hanalyze, hplace, ?_, ?_, ?_, fun d => ?_⟩
      · exact iff_of_false (nomatch ·) (not_not.2 hmarked)
      · exact iff_of_true ⟨h, rfl⟩ ⟨hmarked, haccepts⟩
      · rintro _ ⟨⟩
        exact hdeclares
      · exact iff_of_false (nomatch ·) fun ⟨_, f, hf, _⟩ => haccepts.not_flawed f hf
    · refine ⟨_, location, analyze_of_flawed ht hlocation hpath hmarked hf, hplace, ?_, ?_, ?_, fun d => ?_⟩
      · exact iff_of_false (nomatch ·) (not_not.2 hmarked)
      · exact iff_of_false (fun ⟨_, h⟩ => nomatch h) fun h => h.2.not_flawed f hf
      · exact fun _ h => nomatch h
      · constructor
        · rintro ⟨⟩
          exact ⟨hmarked, f, hf, rfl⟩
        · rintro ⟨-, g, hg, rfl⟩
          rw [hf.unique hg]
  · refine ⟨.ignored, location, analyze_of_unmarked ht hlocation hmarked, hplace, ?_, ?_, ?_, fun d => ?_⟩
    · exact iff_of_true rfl hmarked
    · exact iff_of_false (fun ⟨_, h⟩ => nomatch h) fun h => hmarked h.1
    · exact fun _ h => nomatch h
    · exact iff_of_false (nomatch ·) fun h => hmarked h.1

/-! ### A parameter that is declared twice -/

namespace Sample

/-- a node that is one word -/
def word (kind : String) (field : Option String) (text : String) : Tree :=
  { kind := kind, field := field, text := some (Text.Utf8.encode text) }

/-- an attribute list with a word before its attribute -/
def listed (target : List Tree) (name : String) : Tree :=
  { kind := "attribute_list",
    children := target ++ [{ kind := "attribute", children := [word "qualified_name" none name] }] }

/-- A delegate that is marked by its second list, the first being aimed at what it returns. The second parameter has no
name field, so its last identifier counts. -/
def delegate : Tree where
  kind := "delegate_declaration"
  row := 6
  column := 4
  children :=
    [listed [word "attribute_target_specifier" none "return:"] "Obsolete", listed [] "global::Godot.Signal",
      word "identifier" (some "name") "HitEventHandler",
      { kind := "parameter_list", field := some "parameters",
        children :=
          [{ kind := "parameter", children := [word "identifier" (some "name") "by"] },
            { kind := "parameter_array", children := [word "identifier" none "T", word "identifier" none "by"] }] }]

/-- what marks a handler as a rule -/
def marking : Marking := ⟨"SignalAttribute", "EventHandler", by decide, by decide⟩

def file : Path := ⟨.here, ["Hit.cs"], by decide⟩

theorem file_named : file.name ≠ "" := by decide

end Sample

theorem analyze_exact_sample :
    Sample.delegate.Legible ∧ 0 ≤ Sample.delegate.row ∧ 0 ≤ Sample.delegate.column ∧ Sample.file.name ≠ "" ∧
    ∃ o location, Sample.marking.analyze (some Sample.delegate) (some Sample.file) = .ok o ∧ location.line = 7 ∧
      o = .problem (Flaw.report Sample.marking Sample.file_named location "HitEventHandler" (.repeated "by")) := by
  have hlegible : Sample.delegate.Legible := by decide +kernel
  have hmarked : Sample.delegate.Bears "SignalAttribute" := by decide +kernel
  obtain ⟨o, location, hanalyze, ⟨-, hline, -⟩, -, -, -, hproblem⟩ :=
    analyze_exact Sample.marking hlegible (by decide) (by decide) Sample.file_named
  have hname : Sample.delegate.writtenField "name" = "HitEventHandler" := by decide +kernel
  have hparameters : Sample.delegate.delegateParameters = ["by", "by"] := by decide +kernel
  have hresolved : Sample.delegate.Resolved := by
    refine ⟨by rw [hname]; decide, by decide +kernel, ?_⟩
    rw [← Tree.hasFaults_iff]
    decide +kernel
  have hflawed : Sample.marking.Flawed Sample.delegate (.repeated "by") := by
    refine ⟨hresolved, ⟨"Hit", by decide, by rw [hname]; decide⟩, ?_, ["by"], [], ?_⟩
    · rw [hparameters]
      decide
    · rw [hparameters]
      decide
  refine ⟨hlegible, by decide, by decide, Sample.file_named, o, location, hanalyze, ?_, ?_⟩
  · have hrow : Sample.delegate.row = 6 := rfl
    omega
  · exact (hproblem _).2 ⟨hmarked, _, hflawed, by rw [hname]⟩

end Marking

end SignalWiring
