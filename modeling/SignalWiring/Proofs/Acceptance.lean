/-
Which configurations are accepted, and how the others are refused.

What is accepted should be a proper configuration, and a refusal should be a fault of the configuration, which the command
reports. Settings, documents and files for which it is not so slip: the checks take for granted that a value is a table or a
text where nothing has made sure of it, and a refusal may not come to its words, since it cannot name an empty key or show a
number that is too long. Nor is a number read that is too long in decimal. `Slips` and `FileSlips` list them, each with
what becomes of it.

- `Config.promised_or_slips`, `Config.ofPairs_of_slips`: settings keep the promise or slip.
- `ConfigFile.promised_or_slips`, `ConfigFile.ofBytes_promised_or_slips`: so do documents and files.
- `Cli.performWith_of_refused`: what the command does when its configuration is refused.
- `ConfigFile.load_promised`: which files keep the promise, and when the command answers that it was misused.
-/
import SignalWiring.Cli.Command
import SignalWiring.Proofs.Checks
import SignalWiring.Proofs.Numerals

namespace SignalWiring

namespace Config

/-! ## What is promised, and what slips -/

/-- what the type of a configuration leaves open -/
structure Proper (c : Config) : Prop where
  /-- the root artifact is a file name -/
  root : ∃ name, c.root = .text name ∧ name ≠ "" ∧ '/' ∉ name.toList ∧ '\\' ∉ name.toList
  /-- the number of workers is missing or a positive whole number -/
  workers : c.workers = .null ∨ ∃ n, c.workers = .whole n ∧ 1 ≤ n

/-- what is promised of a configuration that is asked for: it is proper, or it is refused with a fault of the configuration
that passes its own checks -/
inductive Promised : Except Fault Config → Prop where
  | accepted (c : Config) (proper : c.Proper) : Promised (.ok c)
  | refused (key reason : String) (raised : Fault.forSetting key reason = .ok (.setting key reason)) :
      Promised (.error (.setting key reason))

/-- a refusal by the check would show the value of the setting -/
inductive Check.Shows (settings : List (String × Setting)) : Check → ConfigKey → Prop where
  | count : Shows settings .count .workers
  | identifier (k : ConfigKey) : Shows settings (.identifier k) k
  | root (nest : (value settings .root).contains? '/' ≠ none) : Shows settings .root .root
  | workers : Shows settings .workers .workers

/-- settings for which the promise is not kept, and what becomes of them -/
inductive Slips (settings : List (String × Setting)) : Except Fault Config → Prop where
  /-- the first unknown name is empty, and no fault of the configuration can name it -/
  | unnamed (stops : Stops settings Check.all .names) (empty : firstUnknown settings = "") :
      Slips settings (.error (.invalid (.empty "key")))
  /-- a refusal would show a number that is too long to be written out -/
  | unshown (check : Check) (k : ConfigKey) (stops : Stops settings Check.all check) (shows : check.Shows settings k)
      (long : (value settings k).overlong = true) : Slips settings (.error (.invalid (.tooManyDigits Decimal.maxDigits)))
  /-- a slash is looked for in a root artifact that is a number, a date or true -/
  | scalarRoot (stops : Stops settings Check.all .root) (holds : (value settings .root).holds = true)
      (scalar : (value settings .root).contains? '/' = none) : Slips settings (.error .mistyped)
  /-- the output marker is no text, and is asked for its start -/
  | untypedMarker (stops : Stops settings Check.all .generated) (untyped : ∀ t, value settings .generated ≠ .text t) :
      Slips settings (.error .memberless)
  /-- a root artifact that is a list or a table passes every check -/
  | nestedRoot (c : Config) (passes : ∀ check ∈ Check.all, check.Passes settings) (holds : Holds settings c)
      (untyped : ∀ t, value settings .root ≠ .text t) : Slips settings (.ok c)

section Promise

variable {settings : List (String × Setting)} {checks : List Check} {check : Check} {x : Except Fault Config}

theorem Decides.eq_of_stops (h : Decides settings checks x) (stops : Stops settings checks check) :
    x = .error (check.fault settings) := by
  rcases h with ⟨other, hother, hx⟩ | ⟨hall, -⟩
  · rw [hx, stops.unique hother]
  · exact absurd hall stops.not_all

/-- the values of the settings make up the configuration -/
theorem Holds.unique {c c' : Config} (h : Holds settings c) (h' : Holds settings c') : c = c' := by
  obtain ⟨hcontainer, hmarker, hsuffix, hroot, hdispatch, ⟨t, ht, horder⟩, hgenerated, hworkers⟩ := h
  obtain ⟨hcontainer', hmarker', hsuffix', hroot', hdispatch', ⟨t', ht', horder'⟩, hgenerated', hworkers'⟩ := h'
  rw [hcontainer] at hcontainer'
  rw [hmarker] at hmarker'
  rw [hsuffix] at hsuffix'
  rw [hroot] at hroot'
  rw [hdispatch] at hdispatch'
  rw [ht] at ht'
  rw [hgenerated] at hgenerated'
  rw [hworkers] at hworkers'
  cases ht'
  rw [horder] at horder'
  cases c
  cases c'
  simp only [Setting.text.injEq, Option.some.injEq] at *
  subst_vars
  rfl

theorem promised_refuse (k : ConfigKey) {reason : String} (h : reason ≠ "") :
    Promised (.error (Draft.refuse k reason)) := by
  have hlabel : k.label ≠ "" := by cases k <;> decide
  refine .refused k.label reason ?_
  rw [Fault.forSetting, if_neg hlabel, if_neg h]

/-- A refusal that shows a value is a fault of the configuration, unless the value has no reading form. -/
theorem promised_or_long (k : ConfigKey) (reason : String) (s : Setting) :
    Promised (.error (Draft.refuseShown k reason s)) ∨
      s.overlong = true ∧ Draft.refuseShown k reason s = .invalid (.tooManyDigits Decimal.maxDigits) := by
  by_cases hlong : s.overlong = true
  · exact Or.inr ⟨hlong, if_pos hlong⟩
  · rw [Draft.refuseShown, if_neg hlong]
    refine Or.inl (promised_refuse k ?_)
    exact append_ne_empty_left (append_ne_empty_right (by decide))

/-- what refuses settings keeps the promise, or it is known to slip -/
theorem fault_promised_or_slips (stops : Stops settings Check.all check) :
    Promised (.error (check.fault settings)) ∨ Slips settings (.error (check.fault settings)) := by
  have hshown : ∀ (k : ConfigKey) (reason : String), check.Shows settings k →
      check.fault settings = Draft.refuseShown k reason (value settings k) →
      Promised (.error (check.fault settings)) ∨ Slips settings (.error (check.fault settings)) := by
    intro k reason hshows hfault
    rw [hfault]
    rcases promised_or_long k reason (value settings k) with hpromised | ⟨hlong, htold⟩
    · exact Or.inl hpromised
    · rw [htold]
      exact Or.inr (.unshown check k stops hshows hlong)
  cases check with
  | names =>
    rw [Check.fault, Fault.forSetting]
    by_cases hempty : firstUnknown settings = ""
    · rw [if_pos hempty]
      exact Or.inr (.unnamed stops hempty)
    · have hraised : Fault.forSetting (firstUnknown settings) "unknown key" =
          .ok (.setting (firstUnknown settings) "unknown key") := by
        rw [Fault.forSetting, if_neg hempty]
        rfl
      rw [if_neg hempty]
      exact Or.inl (.refused _ _ hraised)
  | label => exact Or.inl (promised_refuse .order (append_ne_empty_left (by decide)))
  | count => exact hshown _ _ .count rfl
  | identifier k => exact hshown _ _ (.identifier k) rfl
  | ending => exact Or.inl (promised_refuse .marker (append_ne_empty_left (by decide)))
  | root =>
    by_cases hscalar : (value settings .root).contains? '/' = none
    · by_cases hholds : (value settings .root).holds = true
      · have hfault : Check.root.fault settings = .mistyped := if_pos ⟨hholds, hscalar⟩
        rw [hfault]
        exact Or.inr (.scalarRoot stops hholds hscalar)
      · -- nothing, false and zero have a short reading form
        have hshort : (value settings .root).overlong ≠ true := by
          cases hs : value settings .root with
          | whole n =>
            rw [hs] at hholds
            have hzero : n = 0 := by simpa [Setting.holds] using hholds
            subst hzero
            rw [Setting.overlong, Decimal.overlong_zero]
            exact Bool.false_ne_true
          | list items => rw [hs] at hscalar; cases hscalar
          | table entries => rw [hs] at hscalar; cases hscalar
          | _ => simp [Setting.overlong]
        have hfault : Check.root.fault settings =
            Draft.refuseShown .root "must be a bare file name" (value settings .root) := if_neg fun h => hholds h.1
        rw [hfault]
        exact Or.inl ((promised_or_long _ _ _).resolve_right fun h => hshort h.1)
    · exact hshown _ _ (.root hscalar) (if_neg fun h => hscalar h.2)
  | order => exact Or.inl (promised_refuse .order (append_ne_empty_left (by decide)))
  | generated =>
    cases hs : value settings .generated with
    | text t =>
      have hfault : Check.generated.fault settings = Draft.refuseShown .generated "must look like '.g'" (.text t) := by
        rw [Check.fault, hs]
      rw [hfault]
      exact Or.inl ((promised_or_long _ _ _).resolve_right fun h => by simp [Setting.overlong] at h)
    | _ =>
      have huntyped : ∀ t, value settings .generated ≠ .text t := fun t ht => by rw [hs] at ht; cases ht
      have hfault : Check.generated.fault settings = .memberless := by rw [Check.fault, hs]
      rw [hfault]
      exact Or.inr (.untypedMarker stops huntyped)
  | workers => exact hshown _ _ .workers rfl

/-- **Settings keep the promise or slip.** -/
theorem promised_or_slips (settings : List (String × Setting)) :
    Promised (Config.ofPairs settings) ∨ Slips settings (Config.ofPairs settings) := by
  rcases decides_ofPairs settings with ⟨check, stops, hx⟩ | ⟨hpasses, c, hx, hholds⟩
  · rw [hx]
    exact fault_promised_or_slips stops
  · rw [hx]
    by_cases htext : ∃ t, value settings .root = .text t
    · obtain ⟨t, ht⟩ := htext
      have hroot : Check.root.Passes settings := hpasses .root (by simp [Check.all])
      rw [Check.Passes, ht] at hroot
      simp only [Setting.holds, bne_iff_ne, Setting.contains?, Option.some.injEq, List.contains_eq_mem,
        decide_eq_false_iff_not] at hroot
      refine Or.inl (.accepted c ⟨⟨t, hholds.root.symm.trans ht, hroot⟩, ?_⟩)
      rw [← hholds.workers]
      rcases hpasses .count (by simp [Check.all]) with hnull | ⟨n, hn⟩
      · exact Or.inl hnull
      · exact Or.inr ⟨n, hn, hpasses .workers (by simp [Check.all]) n hn⟩
    · exact Or.inr (.nestedRoot c hpasses hholds fun t ht => htext ⟨t, ht⟩)

/-- What becomes of settings that slip. -/
theorem ofPairs_of_slips (h : Slips settings x) : Config.ofPairs settings = x := by
  have hdecides := decides_ofPairs settings
  cases h with
  | unnamed stops empty =>
    rw [hdecides.eq_of_stops stops, Check.fault, empty]
    rfl
  | unshown check k stops shows long =>
    rw [hdecides.eq_of_stops stops]
    cases shows with
    | count => exact congrArg Except.error (if_pos long)
    | identifier => exact congrArg Except.error (if_pos long)
    | root nest =>
      have hfault : Check.root.fault settings =
          Draft.refuseShown .root "must be a bare file name" (value settings .root) := if_neg fun h => nest h.2
      rw [hfault, Draft.refuseShown, if_pos long]
    | workers => exact congrArg Except.error (if_pos long)
  | scalarRoot stops holds scalar =>
    rw [hdecides.eq_of_stops stops]
    exact congrArg Except.error (if_pos ⟨holds, scalar⟩)
  | untypedMarker stops untyped =>
    rw [hdecides.eq_of_stops stops, Check.fault]
    split
    · rename_i t ht
      exact absurd ht (untyped t)
    · rfl
  | nestedRoot c passes holds untyped =>
    rcases hdecides with ⟨check, stops, -⟩ | ⟨-, c', hx, hholds⟩
    · exact absurd passes stops.not_all
    · rw [hx, hholds.unique holds]

/-- What slips does not keep the promise. -/
theorem Slips.not_promised (h : Slips settings x) : ¬Promised x := by
  intro hpromised
  cases h with
  | nestedRoot c passes holds untyped =>
    cases hpromised with
    | accepted c proper =>
      obtain ⟨name, hname, -⟩ := proper.root
      exact untyped name (holds.root.trans hname)
  | _ => cases hpromised

/-- where `x` keeps the promise or is among the outcomes `S`, of which none does and `x` is the only one, it keeps it when
there is no such outcome -/
theorem promised_iff_of {S : Except Fault Config → Prop} (hor : Promised x ∨ S x) (honly : ∀ y, S y → x = y)
    (hnot : ∀ y, S y → ¬Promised y) : Promised x ↔ ∀ y, ¬S y := by
  constructor
  · intro hpromised y hy
    exact hnot y hy (honly y hy ▸ hpromised)
  · intro hnone
    exact hor.resolve_right (hnone x)

/-- **The settings that slip** are those for which the promise is not kept. -/
theorem promised_iff : Promised (Config.ofPairs settings) ↔ ∀ x, ¬Slips settings x :=
  promised_iff_of (promised_or_slips settings) (fun _ => ofPairs_of_slips) fun _ => Slips.not_promised

/-- every setting passes its own check with its usual value -/
theorem passes_usual : ∀ check ∈ Check.all, check.Passes [] := by
  have hidentifier : ∀ k t, (({} : Draft).get k) = .text t → Text.isIdentifier t = true → (Check.identifier k).Passes [] :=
    fun k t ht h => ⟨t, ht, h⟩
  simp only [Check.all, List.forall_mem_cons]
  refine ⟨fun _ h => (nomatch h), ?_, Or.inl rfl, hidentifier _ _ rfl Config.standard.container_ok,
    hidentifier _ _ rfl Config.standard.marker_ok, hidentifier _ _ rfl Config.standard.suffix_ok,
    hidentifier _ _ rfl Config.standard.dispatch_ok, ?_, ⟨by decide, by decide, by decide⟩, ⟨"sorted", rfl⟩,
    ⟨".g", rfl, Config.standard.generated_ok⟩, ?_, fun _ h => (nomatch h)⟩
  · intro t ht
    cases ht
    decide
  · intro t ht
    cases ht
    exact Config.standard.marker_attribute
  · intro n hn
    cases hn

theorem not_slips_nil (x : Except Fault Config) : ¬Slips [] x := by
  intro h
  cases h with
  | unnamed stops _ => exact stops.not_all passes_usual
  | unshown _ _ stops _ _ => exact stops.not_all passes_usual
  | scalarRoot stops _ _ => exact stops.not_all passes_usual
  | untypedMarker stops _ => exact stops.not_all passes_usual
  | nestedRoot c _ _ untyped => exact untyped "Behavior.cs" rfl

end Promise

end Config

/-! ## Documents and files -/

namespace ConfigFile

/-- documents for which the promise is not kept, and what becomes of them -/
inductive Slips (document : Toml.Table) : Except Fault Config → Prop where
  /-- `tool` is no table, and is asked for an entry -/
  | tool (s : Setting) (found : document.lookup "tool" = some s) (untyped : ∀ tools, s ≠ .table tools) :
      Slips document (.error .memberless)
  /-- the settings of the generator slip -/
  | settings (tools settings : Toml.Table) (found : document.lookup "tool" = some (.table tools))
      (below : tools.lookup tableName = some (.table settings)) (x : Except Fault Config)
      (slips : Config.Slips settings x) : Slips document x

/-- files for which the promise is not kept, and what becomes of them -/
inductive FileSlips (bytes : List UInt8) : Except Fault Config → Prop where
  /-- the bytes are no text -/
  | undecodable (cause : Text.Utf8.Fault) (broken : Text.Utf8.decode bytes = .error cause) :
      FileSlips bytes (.error (.undecodable cause))
  /-- a whole number in base ten has too many digits to be read, and nothing is wrong before it -/
  | overlong (text : String) (digits : ℕ) (decoded : Text.Utf8.decode bytes = .ok text)
      (long : Decimal.maxDigits < digits) (stopped : Toml.parse text = .error (.overlong digits)) :
      FileSlips bytes (.error (.invalid (.tooLongNumeral Decimal.maxDigits digits)))
  /-- the bytes are a document that slips -/
  | document (text : String) (document : Toml.Table) (decoded : Text.Utf8.decode bytes = .ok text)
      (parsed : Toml.parse text = .ok document) (x : Except Fault Config) (slips : Slips document x) : FileSlips bytes x

section Documents

variable {document : Toml.Table} {x : Except Fault Config}

theorem ofDocument_of_slips (h : Slips document x) : ofDocument document = x := by
  cases h with
  | tool s found untyped =>
    unfold ofDocument
    rw [found]
    cases s with
    | table tools => exact absurd rfl (untyped tools)
    | _ => rfl
  | settings tools settings found below x slips =>
    simp only [ofDocument, found, below]
    exact Config.ofPairs_of_slips slips

theorem Slips.not_promised (h : Slips document x) : ¬Config.Promised x := by
  cases h with
  | tool s found untyped => exact fun hpromised => nomatch hpromised
  | settings tools settings found below x slips => exact slips.not_promised

theorem promised_ofPairs_nil : Config.Promised (Config.ofPairs []) :=
  Config.promised_iff.2 Config.not_slips_nil

theorem promised_or_slips (document : Toml.Table) :
    Config.Promised (ofDocument document) ∨ Slips document (ofDocument document) := by
  cases hfound : document.lookup "tool" with
  | none =>
    simp only [ofDocument, hfound]
    exact Or.inl promised_ofPairs_nil
  | some s =>
    cases s with
    | table tools =>
      cases hbelow : tools.lookup tableName with
      | none =>
        simp only [ofDocument, hfound, hbelow]
        exact Or.inl promised_ofPairs_nil
      | some s =>
        cases s with
        | table settings =>
          simp only [ofDocument, hfound, hbelow]
          exact (Config.promised_or_slips settings).imp id fun h => .settings tools settings hfound hbelow _ h
        | _ =>
          simp only [ofDocument, hfound, hbelow]
          exact Or.inl (.refused _ _ rfl)
    | _ =>
      simp only [ofDocument, hfound]
      exact Or.inr (.tool _ hfound fun tools h => nomatch h)

end Documents

section Files

variable {path : Path} {bytes : List UInt8} {x : Except Fault Config}

theorem ofBytes_of_slips (h : FileSlips bytes x) : ofBytes path bytes = x := by
  cases h with
  | undecodable cause broken => simp only [ofBytes, broken]
  | overlong text digits decoded _ stopped => simp only [ofBytes, decoded, stopped]
  | document text document decoded parsed x slips =>
    simp only [ofBytes, decoded, parsed]
    exact ofDocument_of_slips slips

theorem FileSlips.not_promised (h : FileSlips bytes x) : ¬Config.Promised x := by
  cases h with
  | undecodable cause broken => exact fun hpromised => nomatch hpromised
  | overlong text digits decoded _ stopped => exact fun hpromised => nomatch hpromised
  | document text document decoded parsed x slips => exact slips.not_promised

/-- a path has a text that is not empty, so that a fault can name it -/
theorem toString_ne_empty (p : Path) : p.toString ≠ "" := by
  obtain ⟨start, parts, clean⟩ := p
  cases parts with
  | nil => cases start <;> simp [Path.toString, Path.Start.text, Text.join]
  | cons part rest =>
    have hpart : part ≠ "" := (clean part List.mem_cons_self).1
    have hjoin : Text.join "/" (part :: rest) ≠ "" := by
      intro hempty
      have hlist := congrArg String.toList hempty
      rw [Text.join, String.toList_intercalate] at hlist
      cases rest with
      | nil => simp [hpart] at hlist
      | cons other more => simp [List.intercalate] at hlist
    cases start <;> exact append_ne_empty_right hjoin

theorem ofBytes_promised_or_slips (path : Path) (bytes : List UInt8) :
    Config.Promised (ofBytes path bytes) ∨ FileSlips bytes (ofBytes path bytes) := by
  cases hdecode : Text.Utf8.decode bytes with
  | error cause =>
    simp only [ofBytes, hdecode]
    exact Or.inr (.undecodable cause hdecode)
  | ok text =>
    rcases hparse : Toml.parse text with (_ | digits) | document
    · have hraised : Fault.forSetting path.toString "invalid TOML" = .ok (.setting path.toString "invalid TOML") := by
        rw [Fault.forSetting, if_neg (toString_ne_empty path)]
        rfl
      simp only [ofBytes, hdecode, hparse]
      exact Or.inl (.refused _ _ hraised)
    · simp only [ofBytes, hdecode, hparse]
      exact Or.inr (.overlong text digits hdecode (Toml.exceeds_parse text digits hparse) hparse)
    · simp only [ofBytes, hdecode, hparse]
      exact (promised_or_slips document).imp id fun h => .document text document hdecode hparse _ h

/-- **The files that slip** are those for which the promise is not kept. -/
theorem promised_iff : Config.Promised (ofBytes path bytes) ↔ ∀ x, ¬FileSlips bytes x :=
  Config.promised_iff_of (ofBytes_promised_or_slips path bytes) (fun _ => ofBytes_of_slips)
    fun _ => FileSlips.not_promised

/-- A fault of a file is a fault of the configuration, unless the file slips. -/
theorem isMisuse_iff {fault : Fault} (h : ofBytes path bytes = .error fault) :
    Cli.isMisuse fault = true ↔ ∀ x, ¬FileSlips bytes x := by
  rw [← promised_iff, h]
  constructor
  · intro hmisuse
    rcases ofBytes_promised_or_slips path bytes with hpromised | hslips
    · exact h ▸ hpromised
    · rw [h] at hslips
      cases hslips with
      | undecodable => cases hmisuse
      | overlong => cases hmisuse
      | document _ _ _ _ _ slips =>
        cases slips with
        | tool => cases hmisuse
        | settings _ _ _ _ _ slips => cases slips <;> cases hmisuse
  · intro hpromised
    cases hpromised
    rfl

end Files

end ConfigFile

/-! ## The command -/

namespace Cli

/-- the request takes its configuration from the file at `path`: the one that it names, or else the one beside the sources -/
def Request.Configures (r : Request) (files : FileTree) (path : Path) : Prop :=
  (∃ name, r.config = some name ∧ path = Path.ofString name) ∨
    r.config = none ∧ path = Path.ofString r.source / configName ∧ files.isFile path = true

theorem findConfig_of_configures {r : Request} {files : FileTree} {path : Path} (h : r.Configures files path) :
    findConfig files (Path.ofString r.source) (r.config.map Path.ofString) = ConfigFile.load files path := by
  rcases h with ⟨name, hnamed, rfl⟩ | ⟨hnone, rfl, hfile⟩
  · rw [hnamed]
    rfl
  · rw [hnone]
    simp only [Option.map_none, findConfig, hfile, if_true]

/-- A request whose configuration is refused ends at once: with an answer about misuse, or with the fault. -/
theorem performWith_of_refused {read : SourceReader} {r : Request} {files : FileTree} {path : Path} {moment : String} {setup : Log.Setup}
    {fault : Fault} (hsetup : Log.Setup.fresh.configure r.level r.logFormat.label = .ok setup)
    (hpath : r.Configures files path) (hfault : ConfigFile.load files path = .error fault) :
    performWith read r moment files =
      if isMisuse fault then ⟨files, .ok ⟨exitMisused, "", r.style.failure Report.standardWidth fault.message⟩⟩
      else ⟨files, .error fault⟩ := by
  have hprepare : prepare files (Path.ofString r.source) (r.config.map Path.ofString) = .error fault := by
    rw [prepare, findConfig_of_configures hpath, hfault]
    rfl
  simp only [performWith, hsetup, hprepare]

end Cli

namespace ConfigFile

/-- **Configuration files.** Whatever is in a file, what is read from it is a proper configuration or a fault of the
configuration, unless the file slips, and then it is what slips. And when a request takes its configuration from the file
and is refused, the command answers that it was misused, unless the file slips; how sources are read has no part in it. -/
theorem load_promised (files : FileTree) (path : Path) (bytes : List UInt8) (hread : files.read path = .ok bytes) :
    (Config.Promised (load files path) ↔ ∀ x, ¬FileSlips bytes x) ∧
    (∀ x, FileSlips bytes x → load files path = x) ∧
    ∀ (read : SourceReader) arguments moment r setup fault, Cli.ask arguments = .run r →
      Log.Setup.fresh.configure r.level r.logFormat.label = .ok setup → r.Configures files path →
      load files path = .error fault →
      ((∃ answer, (Cli.runWith read arguments moment files).outcome = .ok answer ∧ answer.exit = Cli.exitMisused) ↔
        ∀ x, ¬FileSlips bytes x) := by
  have hload : load files path = ofBytes path bytes := by simp only [load, hread]
  rw [hload]
  refine ⟨promised_iff, fun x hslips => ofBytes_of_slips hslips, ?_⟩
  intro read arguments moment r setup fault hask hsetup hpath hfault
  have hrun : Cli.runWith read arguments moment files = Cli.performWith read r moment files := by
    simp only [Cli.runWith, hask]
  rw [hrun, Cli.performWith_of_refused hsetup hpath (hload.trans hfault), ← isMisuse_iff hfault]
  split
  · rename_i hmisuse
    exact iff_of_true ⟨_, rfl, rfl⟩ hmisuse
  · rename_i hnot
    refine iff_of_false ?_ hnot
    rintro ⟨answer, hanswer, -⟩
    cases hanswer

/-! ### A number where a table should be -/

namespace Sample

/-- a document whose `tool` is a number -/
def numbered : String := "tool = 5\n"

/-- beside the sources there is nothing but this document -/
def tree : FileTree := .folder [("src", .folder [("pyproject.toml", .file (Text.Utf8.encode numbered) true)])]

/-- where it is -/
def place : Path := Path.ofString "src" / Cli.configName

theorem exists_numbered : ∃ document, Toml.parse numbered = .ok document ∧ Slips document (.error .memberless) := by
  have hnumber : ((Toml.parse numbered).toOption.bind fun document => document.lookup "tool").map Toml.isNest =
      some false := by decide +kernel
  obtain ⟨s, hs, hnest⟩ := Option.map_eq_some_iff.1 hnumber
  obtain ⟨document, hparse, hfound⟩ := Option.bind_eq_some_iff.1 hs
  refine ⟨document, eq_ok_of_toOption hparse, .tool s hfound fun tools htable => ?_⟩
  rw [htable] at hnest
  cases hnest

theorem read_place : tree.read place = .ok (Text.Utf8.encode numbered) := eq_ok_of_toOption (by decide +kernel)

theorem fileSlips_numbered : FileSlips (Text.Utf8.encode numbered) (.error .memberless) := by
  have htext : Text.Utf8.decode (Text.Utf8.encode numbered) = .ok numbered := eq_ok_of_toOption (by decide +kernel)
  obtain ⟨document, hparse, hslips⟩ := exists_numbered
  exact .document numbered document htext hparse _ hslips

end Sample

theorem load_promised_sample :
    Sample.tree.read Sample.place = .ok (Text.Utf8.encode Sample.numbered) ∧
    load Sample.tree Sample.place = .error .memberless ∧ ¬Config.Promised (load Sample.tree Sample.place) ∧
    ¬∃ answer, (Cli.runWith Cli.sourceReader ["src"] "now" Sample.tree).outcome = .ok answer ∧ answer.exit = Cli.exitMisused := by
  obtain ⟨hpromised, hload, hexit⟩ := load_promised Sample.tree Sample.place _ Sample.read_place
  have hstopped := hload _ Sample.fileSlips_numbered
  have hask : Cli.ask ["src"] = .run { source := "src" } := by decide +kernel
  have hpath : Cli.Request.Configures { source := "src" } Sample.tree Sample.place :=
    Or.inr ⟨rfl, rfl, by decide +kernel⟩
  refine ⟨Sample.read_place, hstopped, fun h => hpromised.1 h _ Sample.fileSlips_numbered, fun hanswer => ?_⟩
  exact (hexit Cli.sourceReader ["src"] "now" _ _ _ hask rfl hpath hstopped).1 hanswer _ Sample.fileSlips_numbered

/-- **A number for a table.** A document whose `tool` is a number is not refused with a fault of the configuration. -/
theorem number_for_tool : ∃ document, Toml.parse "tool = 5\n" = .ok document ∧
    ¬Config.Promised (ofDocument document) := by
  obtain ⟨document, hparse, hslips⟩ := Sample.exists_numbered
  refine ⟨document, hparse, ?_⟩
  rw [ofDocument_of_slips hslips]
  exact fun hpromised => nomatch hpromised

end ConfigFile

end SignalWiring
