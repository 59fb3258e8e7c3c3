/-
What a console shows of a run.

The texts of a run are the places and messages of its diagnostics, the names in its fragments, and what stopped it. Whatever
toolkit prints the report, as long as it follows some manual: on a console that has room for its tables every diagnostic and
every fragment has one row, in which its texts show (`report_shows`). How they show is a matter of codes alone. Tags show as
they stand, and so does the whole of a text exactly when none of its codes has a picture. A location in a plain path has one
code in it, and that is the line number between its two colons. So it does not show as it stands when its line number is the
name of a picture (`hundredth_line`).

What a backslash at the end of a text shows, or one before a bracket that opens no tag, is left to the toolkit. The standard
one doubles the first and drops the second, and `Markup.shown_escape_iff` says which texts it shows as they stand.

- `Toolkit.Follows.visible_iff`: the texts that show as they stand.
- `Toolkit.Follows.visible_location`, `Toolkit.Follows.visible_location_iff`: locations.
- `shows_of_follows`: the tables of a report.
- `failure_of_follows`: what stopped a run.
-/
import SignalWiring.Decimal.Shortest
import SignalWiring.Proofs.Standard
import SignalWiring.Report.Console

namespace SignalWiring

open Text (Printable Spaced)

/-- the numbers of a location have no more digits than are written -/
def Location.Writable (l : Location) : Prop := l.line < 10 ^ Decimal.maxDigits ∧ l.column < 10 ^ Decimal.maxDigits

/-- the texts of a diagnostic are printable -/
structure Diagnostic.Legible (d : Diagnostic) : Prop where
  place : Printable d.place
  message : Printable d.message
  numbers : ∀ l, d.location = some l → l.Writable

/-- the names of a fragment are printable -/
structure Fragment.Legible (f : Fragment) : Prop where
  artifact : Printable f.artifact
  hint : Printable f.hint

namespace Report

/-! ## Texts -/

/-- what a text of the run shows -/
def Toolkit.visible (t : Toolkit) (m : Manual) (s : String) : List Char := m.shown (t.escape s.toList)

/-- nothing in a text is a colon, a bracket or a backslash -/
def Unmarked (cs : List Char) : Prop := ∀ c ∈ cs, c ≠ ':' ∧ c ≠ '[' ∧ c ≠ '\\'

instance (cs : List Char) : Decidable (Unmarked cs) :=
  List.decidableBAll (fun c => c ≠ ':' ∧ c ≠ '[' ∧ c ≠ '\\') cs

theorem toList_location (l : Location) : l.text.toList = l.file.toString.toList ++
    ':' :: ((toString l.line).toList ++ ':' :: (toString l.column).toList) := by
  simp [Location.text, toString]

theorem isDigit_of_mem_toString {n : ℕ} {c : Char} (h : c ∈ (toString n).toList) : c.isDigit = true := by
  have hdigits : (toString n).toList = Nat.toDigits 10 n := Nat.toList_repr
  exact Nat.isDigit_of_mem_toDigits (by decide) (by decide) (hdigits ▸ h)

theorem unmarked_toString (n : ℕ) : Unmarked (toString n).toList := by
  intro c hc
  have hne : ∀ x : Char, x.isDigit = false → c ≠ x := by
    rintro x hx rfl
    rw [isDigit_of_mem_toString hc] at hx
    cases hx
  exact ⟨hne ':' rfl, hne '[' rfl, hne '\\' rfl⟩

theorem isBlank_of_isDigit {c : Char} (h : c.isDigit = true) : Text.isBlank c = false := by
  simp only [Char.isDigit, Bool.and_eq_true, decide_eq_true_eq, ge_iff_le, UInt32.le_iff_toNat_le] at h
  obtain ⟨hlow, hhigh⟩ : 48 ≤ c.toNat ∧ c.toNat ≤ 57 := h
  rw [Bool.eq_false_iff]
  intro hblank
  simp only [Text.isBlank, Bool.or_eq_true, Bool.and_eq_true, decide_eq_true_eq, beq_iff_eq] at hblank
  omega

theorem bracket_not_mem_location {l : Location} (hfile : Unmarked l.file.toString.toList) :
    '[' ∉ l.text.toList ∧ '\\' ∉ l.text.toList := by
  have hfree : ∀ c ∈ l.text.toList, c ≠ '[' ∧ c ≠ '\\' := by
    intro c hc
    rw [toList_location] at hc
    simp only [List.mem_append, List.mem_cons] at hc
    rcases hc with hc | rfl | hc | rfl | hc
    · exact (hfile c hc).2
    · decide
    · exact (unmarked_toString _ c hc).2
    · decide
    · exact (unmarked_toString _ c hc).2
  exact ⟨fun hmem => (hfree _ hmem).1 rfl, fun hmem => (hfree _ hmem).2 rfl⟩

namespace Toolkit.Follows

section Texts

variable {t : Toolkit} {m : Manual} {cs : List Char} {s : String} {l : Location}

/-- a text without backslashes is harmless -/
theorem harmless (h : t.Follows m) (hbackslash : '\\' ∉ cs) : m.Harmless cs where
  ending hend := absurd (hend.subset List.mem_cons_self) hbackslash
  brackets p hp hescaped := by
    refine hbackslash ?_
    rw [← h.flatten_parts cs]
    exact List.mem_flatten.2 ⟨p, hp, hescaped.subset List.mem_cons_self⟩

theorem count_illustrated_le (h : t.Follows m) (p : List Char) : (m.illustrated p).count ':' ≤ p.count ':' := by
  rcases h.illustrated_colons p with hsame | hless
  · rw [hsame]
  · exact hless.le

theorem count_flatMap_illustrated_le (h : t.Follows m) (ps : List (List Char)) :
    (ps.flatMap m.illustrated).count ':' ≤ ps.flatten.count ':' := by
  induction ps with
  | nil => exact le_rfl
  | cons p rest ih =>
    rw [List.flatMap_cons, List.flatten_cons, List.count_append, List.count_append]
    exact Nat.add_le_add (h.count_illustrated_le p) ih

/-- **No picture makes up for another one.** Texts with pictures in place of their codes are what they were only if there
are no pictures: each one takes colons away, and none brings any. -/
theorem flatMap_illustrated_iff (h : t.Follows m) (ps : List (List Char)) :
    ps.flatMap m.illustrated = ps.flatten ↔ ∀ p ∈ ps, m.illustrated p = p := by
  induction ps with
  | nil => simp
  | cons p rest ih =>
    rw [List.flatMap_cons, List.flatten_cons, List.forall_mem_cons]
    constructor
    · intro hsame
      have hcount := congrArg (List.count ':') hsame
      rw [List.count_append, List.count_append] at hcount
      have hrest := h.count_flatMap_illustrated_le rest
      have hp : m.illustrated p = p := by
        rcases h.illustrated_colons p with hp | hless
        · exact hp
        · omega
      rw [hp] at hsame
      exact ⟨hp, ih.1 (List.append_cancel_left hsame)⟩
    · rintro ⟨hp, hrest⟩
      rw [hp, ih.2 hrest]

/-- **Texts that show as they stand** have no pictures for their codes. -/
theorem visible_iff (h : t.Follows m) (hs : Printable s) (hharmless : m.Harmless s.toList) :
    t.visible m s = s.toList ↔ ∀ p ∈ m.parts s.toList, m.illustrated p = p := by
  have hparts := h.flatMap_illustrated_iff (m.parts s.toList)
  rwa [h.flatten_parts, ← h.shown_escape s hs hharmless] at hparts

/-- so a text shows as it stands when no picture is named between two of its colons -/
theorem visible_of_uncoded (h : t.Follows m) (hs : Printable s) (hharmless : m.Harmless s.toList)
    (hcodes : ∀ name, ':' :: (name ++ [':']) <:+: s.toList → m.picture name = none) : t.visible m s = s.toList := by
  refine (h.visible_iff hs hharmless).2 fun p hp => h.illustrated_uncoded p fun name hcode => hcodes name ?_
  rw [← h.flatten_parts s.toList]
  exact hcode.trans (List.infix_of_mem_flatten hp)

/-- **Locations.** A printable location in an unmarked path shows as it stands but for its line number: if there is a
picture with this number for a name, it shows in place of the number and the colons around it. -/
theorem visible_location (h : t.Follows m) (hl : Printable l.text) (hfile : Unmarked l.file.toString.toList) :
    t.visible m l.text = l.file.toString.toList ++
      ((m.picture (toString l.line).toList).getD (':' :: ((toString l.line).toList ++ [':'])) ++
        (toString l.column).toList) := by
  obtain ⟨hbracket, hbackslash⟩ := bracket_not_mem_location hfile
  have hcolon : ∀ n : ℕ, ':' ∉ (toString n).toList := fun n hmem => (unmarked_toString n _ hmem).1 rfl
  rw [visible, h.shown_escape _ hl (h.harmless hbackslash), h.parts_untagged _ hbracket, List.flatMap_singleton,
    toList_location]
  exact h.illustrated_code _ _ _ (fun hmem => (hfile _ hmem).1 rfl) (hcolon _)
    (fun c hc => isBlank_of_isDigit (isDigit_of_mem_toString hc)) (hcolon _)

/-- So it shows as it stands exactly when there is no such picture. -/
theorem visible_location_iff (h : t.Follows m) (hl : Printable l.text) (hfile : Unmarked l.file.toString.toList) :
    t.visible m l.text = l.text.toList ↔ m.picture (toString l.line).toList = none := by
  have htext : l.text.toList = l.file.toString.toList ++
      (':' :: ((toString l.line).toList ++ [':']) ++ (toString l.column).toList) := by
    rw [toList_location]
    simp
  rw [h.visible_location hl hfile, htext, List.append_cancel_left_eq, List.append_cancel_right_eq]
  cases hpicture : m.picture (toString l.line).toList with
  | none => simp
  | some text =>
    refine iff_of_false (fun hsame => ?_) (by simp)
    rw [Option.getD_some] at hsame
    exact h.picture_colon _ _ hpicture (hsame ▸ List.mem_cons_self)

end Texts

end Toolkit.Follows

/-! ## The report -/

namespace Console

section Report

variable {t : Toolkit} {m : Manual} {width : ℕ} {g : Generation}

def diagnosticCells (t : Toolkit) (m : Manual) (d : Diagnostic) : List (List Char) :=
  [d.severity.label.toList, d.kind.label.toList, t.visible m d.place, t.visible m d.message]

def fragmentCells (t : Toolkit) (m : Manual) (f : Fragment) : List (List Char) :=
  [t.visible m f.artifact, t.visible m f.hint, if f.isRoot then "yes".toList else []]

/-- what a console shows of a run when its tables have room -/
structure Shows (t : Toolkit) (m : Manual) (width : ℕ) (g : Generation) : Prop where
  /-- a diagnostic with printable texts has one row, in which they show -/
  diagnostics : m.room (diagnosticGrid t g.diagnostics) ≤ width →
    m.Lists (report t width g).toList g.diagnostics (diagnosticCells t m) Diagnostic.Legible
  /-- and so has a fragment -/
  fragments : m.room (fragmentGrid t g.fragments) ≤ width →
    m.Lists (report t width g).toList g.fragments (fragmentCells t m) Fragment.Legible

theorem inert_labels (d : Diagnostic) : Inert d.severity.label.toList ∧ Inert d.kind.label.toList := by
  constructor
  · cases d.severity <;> decide +kernel
  · cases d.kind <;> decide +kernel

theorem isStyle_severity (s : Severity) : IsStyle (severityStyle s).toList := by
  cases s <;> decide

theorem inert_root (root : Bool) : Inert (if root then "yes".toList else []) := by
  cases root <;> decide +kernel

theorem trimEnd_root (root : Bool) :
    Text.trimEnd (if root then "yes".toList else []) = if root then "yes".toList else [] := by
  cases root <;> decide

theorem spaced_of_inert {cs : List Char} (h : Inert cs) : Spaced cs := fun c hc hblank =>
  Text.eq_space_of_printable (h.1 c hc).1 hblank

theorem map_shown_diagnosticRow (h : t.Follows m) (d : Diagnostic) :
    (diagnosticRow t d).map m.shown = diagnosticCells t m d := by
  obtain ⟨hseverity, hkind⟩ := inert_labels d
  simp only [diagnosticRow, List.map_cons, List.map_nil, h.shown_styled _ _ (isStyle_severity d.severity) hseverity,
    h.shown_inert _ hkind]
  rfl

theorem map_shown_fragmentRow (h : t.Follows m) (f : Fragment) :
    (fragmentRow t f).map m.shown = fragmentCells t m f := by
  simp only [fragmentRow, List.map_cons, List.map_nil, h.shown_inert _ (inert_root f.isRoot)]
  rfl

theorem suits_left {c : Column} {cs : List Char} (h : Spaced (m.shown cs)) (hleft : c.align = .left) :
    m.Suits c cs := by
  refine ⟨h, fun hcenter => ?_⟩
  rw [hleft] at hcenter
  cases hcenter

theorem suits_diagnosticRow (h : t.Follows m) {d : Diagnostic} (hd : d.Legible) :
    List.Forall₂ m.Suits diagnosticColumns (diagnosticRow t d) := by
  obtain ⟨hseverity, hkind⟩ := inert_labels d
  have hstyled : Spaced (m.shown (styled (severityStyle d.severity).toList d.severity.label.toList)) := by
    rw [h.shown_styled _ _ (isStyle_severity d.severity) hseverity]
    exact spaced_of_inert hseverity
  have hplain : Spaced (m.shown d.kind.label.toList) := by
    rw [h.shown_inert _ hkind]
    exact spaced_of_inert hkind
  exact .cons (suits_left hstyled rfl) <| .cons (suits_left hplain rfl) <|
    .cons (suits_left (h.spaced_escape _ hd.place) rfl) <| .cons (suits_left (h.spaced_escape _ hd.message) rfl) .nil

theorem suits_fragmentRow (h : t.Follows m) {f : Fragment} (hf : f.Legible) :
    List.Forall₂ m.Suits fragmentColumns (fragmentRow t f) := by
  have hroot := h.shown_inert _ (inert_root f.isRoot)
  refine .cons (suits_left (h.spaced_escape _ hf.artifact) rfl) <|
    .cons (suits_left (h.spaced_escape _ hf.hint) rfl) <| .cons ⟨?_, fun _ => ?_⟩ .nil
  · rw [hroot]
    exact spaced_of_inert (inert_root f.isRoot)
  · rw [hroot]
    exact trimEnd_root f.isRoot

theorem headed_diagnosticColumns : Headed diagnosticColumns := by decide

theorem headed_fragmentColumns : Headed fragmentColumns := by decide

/-- a table that is left out when it has no rows lists what it has rows for -/
theorem lists_of_part {α : Type} {xs : List α} {f : α → List (List Char)} {grid : Grid} {clean : α → Prop}
    (h : t.Follows m) (hheaded : Headed grid.columns) (hroom : m.room grid ≤ width) (hrows : grid.rows = xs.map f)
    (hsuits : ∀ x ∈ xs, clean x → List.Forall₂ m.Suits grid.columns (f x)) :
    m.Lists (if xs.isEmpty then "" else t.draw width grid).toList xs (fun x => (f x).map m.shown) clean := by
  cases xs with
  | nil => exact Manual.lists_nil _ _ _ _
  | cons x rest =>
    have hlists := h.draw_of_room width grid hheaded hroom
    rw [hrows] at hlists
    exact hlists.of_map hsuits

/-- **Tables.** What a console shows of a run when its tables have room. -/
theorem shows_of_follows (h : t.Follows m) (width : ℕ) (g : Generation) : Shows t m width g := by
  constructor
  · intro hroom
    have hlists := (lists_of_part h headed_diagnosticColumns hroom rfl fun d _ hd => suits_diagnosticRow h hd).around
      ((t.print width (summary g).toList).toList ++
        (if g.fragments.isEmpty then "" else t.draw width (fragmentGrid t g.fragments)).toList) []
    rw [report, String.toList_append, String.toList_append]
    simpa only [List.append_nil, map_shown_diagnosticRow h] using hlists
  · intro hroom
    have hlists := (lists_of_part h headed_fragmentColumns hroom rfl fun f _ hf => suits_fragmentRow h hf).around
      (t.print width (summary g).toList).toList
      (if g.diagnostics.isEmpty then "" else t.draw width (diagnosticGrid t g.diagnostics)).toList
    rw [report, String.toList_append, String.toList_append]
    simpa only [map_shown_fragmentRow h] using hlists

/-- **Errors.** What stopped a run is one line when it has room. -/
theorem failure_of_follows (h : t.Follows m) {s : String} (hs : Printable s)
    (hroom : m.span (styled "bold red".toList "error:".toList ++ ' ' :: t.escape s.toList) ≤ width) :
    (failure t width s).toList = "error: ".toList ++ t.visible m s ++ ['\n'] := by
  have hinert : Inert "error:".toList := by decide +kernel
  have hshown := h.shown_heading "bold red".toList "error:".toList s (by decide) hinert hs
  have hspaced : Spaced ("error:".toList ++ ' ' :: m.shown (t.escape s.toList)) := by
    intro c hc hblank
    rcases List.mem_append.1 hc with hc | hc
    · exact spaced_of_inert hinert c hc hblank
    · rcases List.mem_cons.1 hc with rfl | hc
      · rfl
      · exact h.spaced_escape s hs c hc hblank
  rw [failure, h.print_of_room width _ (hshown.symm ▸ hspaced) hroom, hshown, Toolkit.visible]
  simp

end Report

/-- **What a console shows.** With every toolkit that follows a manual, a printable text of a run whose backslashes mean
nothing shows as it stands exactly when none of its codes has a picture, and so it does when there is no name of a picture
between two colons of it. A location in an unmarked path shows with the picture for its line number, and as it stands
exactly when there is none. When the tables of a report have room, every diagnostic and every fragment with printable texts
has one row, in which they show. And what stopped a run is one line after its heading. -/
theorem report_shows (t : Toolkit) (m : Manual) (h : t.Follows m) :
    (∀ s, Printable s → m.Harmless s.toList →
      (t.visible m s = s.toList ↔ ∀ p ∈ m.parts s.toList, m.illustrated p = p) ∧
      ((∀ name, ':' :: (name ++ [':']) <:+: s.toList → m.picture name = none) → t.visible m s = s.toList)) ∧
    (∀ l : Location, l.Writable → Printable l.text → Unmarked l.file.toString.toList →
      t.visible m l.text = l.file.toString.toList ++
        ((m.picture (toString l.line).toList).getD (':' :: ((toString l.line).toList ++ [':'])) ++
          (toString l.column).toList) ∧
      (t.visible m l.text = l.text.toList ↔ m.picture (toString l.line).toList = none)) ∧
    (∀ width g, Shows t m width g) ∧
    ∀ width s, Printable s → m.span (styled "bold red".toList "error:".toList ++ ' ' :: t.escape s.toList) ≤ width →
      (failure t width s).toList = "error: ".toList ++ t.visible m s ++ ['\n'] := by
  refine ⟨fun s hs hharmless => ?_, fun l _ hl hfile => ?_, shows_of_follows h,
    fun width s hs hroom => failure_of_follows h hs hroom⟩
  · exact ⟨h.visible_iff hs hharmless, h.visible_of_uncoded hs hharmless⟩
  · exact ⟨h.visible_location hl hfile, h.visible_location_iff hl hfile⟩

namespace Sample

/-- no event at all -/
def silence : IdTable where
  names := .empty
  ids := .empty
  origins := .empty
  sizes_eq := rfl
  reverse := by decide
  origins_discovered := by decide

/-- a line of a file -/
def location (line : ℕ) (h : 0 < line) : Location := ⟨⟨.here, ["Lamp.cs"], by decide⟩, line, 4, h⟩

/-- a warning there, with a tag in its message -/
def warning (line : ℕ) (h : 0 < line) : Diagnostic where
  kind := .malformedDeclaration
  severity := .warning
  message := "[signal] expected"
  artifact := "Lamp.cs"
  location := some (location line h)
  subject := none
  message_ne := by decide
  artifact_ne := by decide

/-- the fragment of this file -/
def fragment : Fragment := ⟨"Lamp.cs", "Lamp.g.cs", "", true, by decide, by decide, by decide⟩

/-- a run with this fragment, and with one warning on this line -/
def generation (line : ℕ) (h : 0 < line) : Generation where
  fragments := [fragment]
  diagnostics := [warning line h]
  table := silence

def toolkit : Toolkit := .standard Markup.numbers

def manual : Manual := .standard Markup.numbers

theorem toolkit_follows : toolkit.Follows manual := Toolkit.follows_standard Markup.lawful_numbers

/-- a text without colons and backslashes shows as it stands -/
theorem visible_of_no_colon {s : String} (h : Printable s) (hcolon : ':' ∉ s.toList) (hbackslash : '\\' ∉ s.toList) :
    toolkit.visible manual s = s.toList :=
  toolkit_follows.visible_of_uncoded h (toolkit_follows.harmless hbackslash) fun _ hcode =>
    absurd (hcode.subset List.mem_cons_self) hcolon

end Sample

open Sample (toolkit manual)

/-- all of the warning but its line number shows as it stands, -/
theorem diagnosticCells_sample {line : ℕ} {h : 0 < line} {place : List Char}
    (hplace : toolkit.visible manual (Sample.warning line h).place = place) :
    diagnosticCells toolkit manual (Sample.warning line h) =
      ["WARNING".toList, "MALFORMED_DECLARATION".toList, place, "[signal] expected".toList] := by
  have hmessage : toolkit.visible manual "[signal] expected" = "[signal] expected".toList :=
    Sample.visible_of_no_colon (by decide +kernel) (by decide) (by decide)
  rw [← hplace, ← hmessage]
  rfl

/-- and so does all of the fragment. -/
theorem fragmentCells_sample :
    fragmentCells toolkit manual Sample.fragment = ["Lamp.cs".toList, "Lamp.g.cs".toList, "yes".toList] := by
  have hartifact : toolkit.visible manual "Lamp.cs" = "Lamp.cs".toList :=
    Sample.visible_of_no_colon (by decide +kernel) (by decide) (by decide)
  have hhint : toolkit.visible manual "Lamp.g.cs" = "Lamp.g.cs".toList :=
    Sample.visible_of_no_colon (by decide +kernel) (by decide) (by decide)
  rw [← hartifact, ← hhint]
  rfl

theorem room_diagnostics_sample {line : ℕ} {h : 0 < line} {place : List Char}
    (hplace : toolkit.visible manual (Sample.warning line h).place = place) :
    manual.room (diagnosticGrid toolkit (Sample.generation line h).diagnostics) =
      ({ diagnosticGrid toolkit [] with
        rows := [["WARNING".toList, "MALFORMED_DECLARATION".toList, place, "[signal] expected".toList]] } : Grid).room := by
  rw [← diagnosticCells_sample hplace, ← map_shown_diagnosticRow Sample.toolkit_follows]
  rfl

theorem room_fragments_sample (line : ℕ) (h : 0 < line) :
    manual.room (fragmentGrid toolkit (Sample.generation line h).fragments) =
      ({ fragmentGrid toolkit [] with
        rows := [["Lamp.cs".toList, "Lamp.g.cs".toList, "yes".toList]] } : Grid).room := by
  rw [← fragmentCells_sample, ← map_shown_fragmentRow Sample.toolkit_follows]
  rfl

theorem writable_sample {line : ℕ} (h : 0 < line) (hline : line < 1000) : (Sample.location line h).Writable :=
  ⟨hline.trans (by decide +kernel), (by decide +kernel : 4 < 10 ^ Decimal.maxDigits)⟩

theorem report_shows_sample :
    toolkit.visible manual "[signal] expected" = "[signal] expected".toList ∧
    toolkit.visible manual (Sample.warning 99 (by decide)).place = "Lamp.cs:99:4".toList ∧
    (∃ head line tail, (report toolkit 120 (Sample.generation 99 (by decide))).toList = head ++ (line ++ ['\n']) ++ tail ∧
      manual.IsRow ["WARNING".toList, "MALFORMED_DECLARATION".toList, "Lamp.cs:99:4".toList,
        "[signal] expected".toList] line) ∧
    (∃ head line tail, (report toolkit 120 (Sample.generation 99 (by decide))).toList = head ++ (line ++ ['\n']) ++ tail ∧
      manual.IsRow ["Lamp.cs".toList, "Lamp.g.cs".toList, "yes".toList] line) ∧
    (failure toolkit 120 "[signal] expected").toList = "error: [signal] expected\n".toList := by
  obtain ⟨htexts, hlocations, hshows, hfailure⟩ := report_shows toolkit manual Sample.toolkit_follows
  have hprintable : Printable "[signal] expected" := by decide +kernel
  have hmessage : toolkit.visible manual "[signal] expected" = "[signal] expected".toList :=
    (htexts _ hprintable (Sample.toolkit_follows.harmless (by decide))).2 fun _ hcode =>
      absurd (hcode.subset List.mem_cons_self) (by decide)
  have htext : (Sample.warning 99 (by decide)).place = "Lamp.cs:99:4" := by decide +kernel
  have hwritable : (Sample.location 99 (by decide)).Writable := writable_sample _ (by decide)
  have hlocation : Printable (Sample.location 99 (by decide)).text := by decide +kernel
  have hplace : toolkit.visible manual (Sample.warning 99 (by decide)).place = "Lamp.cs:99:4".toList := by
    rw [← htext]
    exact (hlocations (Sample.location 99 (by decide)) hwritable hlocation (by decide)).2.2 (by decide +kernel)
  have hlegible : (Sample.warning 99 (by decide)).Legible :=
    ⟨hlocation, hprintable, fun l hl => Option.some.inj hl ▸ hwritable⟩
  obtain ⟨hdiagnostics, hfragments⟩ := hshows 120 (Sample.generation 99 (by decide))
  rw [room_diagnostics_sample hplace] at hdiagnostics
  rw [room_fragments_sample] at hfragments
  refine ⟨hmessage, hplace, ?_, ?_, ?_⟩
  · have hrow := (hdiagnostics (by decide +kernel)).exists_row List.mem_cons_self hlegible
    rwa [diagnosticCells_sample hplace] at hrow
  · have hrow := (hfragments (by decide +kernel)).exists_row List.mem_cons_self ⟨by decide +kernel, by decide +kernel⟩
    rwa [fragmentCells_sample] at hrow
  · have hspan : manual.span (styled "bold red".toList "error:".toList ++ ' ' :: toolkit.escape
        "[signal] expected".toList) = 24 := by
      have hshown := Sample.toolkit_follows.shown_heading "bold red".toList "error:".toList "[signal] expected"
        (by decide) (by decide +kernel) hprintable
      change max (Text.cells (manual.shown _)) (manual.shown _).length = 24
      rw [hshown]
      change max (Text.cells (_ ++ ' ' :: toolkit.visible manual "[signal] expected"))
        (_ ++ ' ' :: toolkit.visible manual "[signal] expected").length = 24
      rw [hmessage]
      decide +kernel
    have hline := hfailure 120 "[signal] expected" hprintable (hspan.le.trans (by decide))
    rw [hmessage] at hline
    exact hline

/-- a single backslash at the end of a text is doubled -/
theorem visible_ending : toolkit.visible manual "a\\" = "a\\\\".toList := by
  have hprintable : Printable "a\\" := by decide +kernel
  have hpiece : Markup.interpreted Markup.numbers "a\\".toList = "a\\".toList := by
    rw [Markup.interpreted, Markup.dropBackslash_eq_self_iff.2 (by decide), Markup.pictures_of_no_colon (by decide)]
  change Markup.shown Markup.numbers (Markup.escape "a\\".toList) = _
  rw [Markup.shown_escape Markup.lawful_numbers (Markup.no_action_of_printable hprintable),
    Markup.pieces_of_no_bracket [] (by decide), List.flatMap_singleton, List.reverse_nil, List.nil_append, hpiece]
  decide

/-- and one before a bracket that opens no tag is lost -/
theorem visible_bracket : toolkit.visible manual "\\[0]" = "[0]".toList := by
  have hprintable : Printable "\\[0]" := by decide +kernel
  have hpieces : Markup.pieces [] "\\[0]".toList = ["\\[0]".toList] := by
    change Markup.pieces [] ['\\', '[', '0', ']'] = _
    rw [Markup.pieces_of_none rfl, Markup.pieces_of_none rfl, Markup.pieces_of_none rfl, Markup.pieces_of_none rfl,
      Markup.pieces]
    rfl
  have hpiece : Markup.interpreted Markup.numbers "\\[0]".toList = "[0]".toList := by
    rw [Markup.interpreted, Markup.pictures_of_no_colon (by decide)]
    decide
  change Markup.shown Markup.numbers (Markup.escape "\\[0]".toList) = _
  rw [Markup.shown_escape Markup.lawful_numbers (Markup.no_action_of_printable hprintable), hpieces,
    List.flatMap_singleton, hpiece]
  decide

/-- **Line 100.** A warning on this line shows with a picture in its location. A single backslash at the end of a text shows
twice, and one before a bracket that opens no tag does not show. -/
theorem hundredth_line :
    (Sample.warning 100 (by decide)).place = "Lamp.cs:100:4" ∧ Printable "Lamp.cs:100:4" ∧
    toolkit.visible manual "Lamp.cs:100:4" = "Lamp.cs💯4".toList ∧
    manual.room (diagnosticGrid toolkit (Sample.generation 100 (by decide)).diagnostics) ≤ 120 ∧
    (∃ head line tail, (report toolkit 120 (Sample.generation 100 (by decide))).toList = head ++ (line ++ ['\n']) ++ tail ∧
      manual.IsRow ["WARNING".toList, "MALFORMED_DECLARATION".toList, "Lamp.cs💯4".toList,
        "[signal] expected".toList] line) ∧
    toolkit.visible manual "a\\" = "a\\\\".toList ∧ toolkit.visible manual "\\[0]" = "[0]".toList := by
  have htext : (Sample.warning 100 (by decide)).place = "Lamp.cs:100:4" := by decide +kernel
  have hlocation : Printable (Sample.location 100 (by decide)).text := by decide +kernel
  have hplace : toolkit.visible manual (Sample.warning 100 (by decide)).place = "Lamp.cs💯4".toList := by
    change toolkit.visible manual (Sample.location 100 (by decide)).text = _
    rw [Sample.toolkit_follows.visible_location hlocation (by decide)]
    decide +kernel
  have hlegible : (Sample.warning 100 (by decide)).Legible :=
    ⟨hlocation, by decide +kernel, fun l hl => Option.some.inj hl ▸ writable_sample _ (by decide)⟩
  have hroom : manual.room (diagnosticGrid toolkit (Sample.generation 100 (by decide)).diagnostics) ≤ 120 := by
    rw [room_diagnostics_sample hplace]
    decide +kernel
  obtain ⟨hdiagnostics, -⟩ := shows_of_follows Sample.toolkit_follows 120 (Sample.generation 100 (by decide))
  refine ⟨htext, htext ▸ hlocation, htext ▸ hplace, hroom, ?_, visible_ending, visible_bracket⟩
  have hrow := (hdiagnostics hroom).exists_row List.mem_cons_self hlegible
  rwa [diagnosticCells_sample hplace] at hrow

end Console

end Report

end SignalWiring
