/-
What a toolkit is relied on for.

The results about the console report hold for every toolkit that follows some manual. A manual says what marked-up texts
show and how much room they take, and `Toolkit.Follows` has one field for each thing that it promises:

- markup: a text with nothing special in it shows as it stands (`shown_inert`), and the tags of a style show nothing
  (`shown_styled`, `shown_heading`);
- escaping: it keeps tags from being read and nothing else. What an escaped text shows are its tags and the texts between
  them, with pictures in place of the codes in each (`shown_escape`). This is promised of harmless texts alone: what becomes
  of a backslash at the end, or before a bracket that opens no tag, is left open;
- codes: a name between colons is replaced by the picture with this name, if there is one (`illustrated_code`), and nothing
  but such codes is replaced (`illustrated_uncoded`, `illustrated_colons`);
- layout: a text of one line and a table with room are neither wrapped nor cut (`print_of_room`, `draw_of_room`).
-/
import Mathlib.Data.List.Infix
import SignalWiring.Report.Toolkit
import SignalWiring.Text.Blank
import SignalWiring.Text.Quoted
import SignalWiring.Text.Split

namespace SignalWiring

namespace Text

/-- a text of printable characters, which is one line -/
def Printable (s : String) : Prop := ∀ c ∈ s.toList, isPrintable c = true

instance (s : String) : Decidable (Printable s) := List.decidableBAll (fun c => isPrintable c = true) s.toList

/-- a text without any blank but spaces -/
def Spaced (cs : List Char) : Prop := ∀ c ∈ cs, isBlank c = true → c = ' '

instance (cs : List Char) : Decidable (Spaced cs) := List.decidableBAll (fun c => isBlank c = true → c = ' ') cs

end Text

namespace Report

open Text (Printable Spaced)

/-- nothing in a text is special to markup: it has no brackets and no backslashes, and too few colons for a code -/
def Inert (cs : List Char) : Prop :=
  (∀ c ∈ cs, Text.isPrintable c = true ∧ c ≠ '[' ∧ c ≠ '\\') ∧ cs.count ':' ≤ 1

instance (cs : List Char) : Decidable (Inert cs) :=
  have := List.decidableBAll (fun c => Text.isPrintable c = true ∧ c ≠ '[' ∧ c ≠ '\\') cs
  inferInstanceAs (Decidable (_ ∧ _))

theorem Inert.not_mem {cs : List Char} (h : Inert cs) : '[' ∉ cs ∧ '\\' ∉ cs :=
  ⟨fun hmem => (h.1 _ hmem).2.1 rfl, fun hmem => (h.1 _ hmem).2.2 rfl⟩

/-- the name of a style: words of small letters -/
def IsStyle (cs : List Char) : Prop :=
  (cs.all fun c => c.isLower || c == ' ') = true ∧ cs.head?.any Char.isLower = true

instance (cs : List Char) : Decidable (IsStyle cs) := inferInstanceAs (Decidable (_ ∧ _))

/-- every column has a word for a header -/
def Headed (columns : List Column) : Prop :=
  columns.isEmpty = false ∧ ∀ c ∈ columns, c.header ≠ [] ∧ c.header.all Char.isAlpha = true

instance (columns : List Column) : Decidable (Headed columns) :=
  have := List.decidableBAll (fun c : Column => c.header ≠ [] ∧ c.header.all Char.isAlpha = true) columns
  inferInstanceAs (Decidable (_ ∧ _))

/-- a text between blanks, at least one on each side -/
def InCell (text cell : List Char) : Prop :=
  ∃ before after : ℕ, cell = ' ' :: (List.replicate before ' ' ++ text ++ List.replicate after ' ' ++ [' '])

/-- what the manual of a toolkit says -/
structure Manual where
  /-- what a marked-up text shows -/
  shown : List Char → List Char
  /-- the tags in a text, and the texts between them -/
  parts : List Char → List (List Char)
  /-- a text with pictures in place of its codes -/
  illustrated : List Char → List Char
  /-- pictures by name -/
  picture : List Char → Option (List Char)
  /-- what stands between the cells of a row -/
  bar : Char
  /-- the room that a marked-up text takes -/
  span : List Char → ℕ
  /-- the room that a table takes -/
  room : Grid → ℕ

namespace Manual

variable (m : Manual)

/-- the backslashes in a text mean nothing: it does not end in a single one, and none stands before a bracket that opens
no tag -/
structure Harmless (cs : List Char) : Prop where
  ending : ['\\'] <:+ cs → ['\\', '\\'] <:+ cs
  brackets : ∀ p ∈ m.parts cs, ¬['\\', '['] <:+: p

/-- a marked-up text fits into a column: it is one line, and one in the middle has no blank at its end -/
structure Suits (c : Column) (cs : List Char) : Prop where
  spaced : Spaced (m.shown cs)
  center : c.align = .center → Text.trimEnd (m.shown cs) = m.shown cs

/-- a line with these texts in its cells, as they stand -/
def IsRow (texts : List (List Char)) (line : List Char) : Prop :=
  ∃ cells, line = m.bar :: (Text.joinWith [m.bar] cells ++ [m.bar]) ∧ List.Forall₂ InCell texts cells

/-- a text has lines for each of `xs`, in their order, and for a `clean` one a single row with its texts -/
def Lists {α : Type} (text : List Char) (xs : List α) (texts : α → List (List Char)) (clean : α → Prop) : Prop :=
  ∃ (head tail : List Char) (lines : α → List Char), text = head ++ xs.flatMap lines ++ tail ∧
    ∀ x ∈ xs, clean x → ∃ line, lines x = line ++ ['\n'] ∧ m.IsRow (texts x) line

end Manual

/-- a toolkit does what a manual says -/
structure Toolkit.Follows (t : Toolkit) (m : Manual) : Prop where
  shown_inert : ∀ cs, Inert cs → m.shown cs = cs
  shown_styled : ∀ style cs, IsStyle style → Inert cs → m.shown (styled style cs) = cs
  /-- a blank and an escaped text show after a styled one what they show alone -/
  shown_heading : ∀ style cs, ∀ s : String, IsStyle style → Inert cs → Printable s →
    m.shown (styled style cs ++ ' ' :: t.escape s.toList) = cs ++ ' ' :: m.shown (t.escape s.toList)
  spaced_escape : ∀ s : String, Printable s → Spaced (m.shown (t.escape s.toList))
  shown_escape : ∀ s : String, Printable s → m.Harmless s.toList →
    m.shown (t.escape s.toList) = (m.parts s.toList).flatMap m.illustrated
  flatten_parts : ∀ cs, (m.parts cs).flatten = cs
  /-- without brackets there are no tags -/
  parts_untagged : ∀ cs, '[' ∉ cs → m.parts cs = [cs]
  illustrated_code : ∀ front name back, ':' ∉ front → ':' ∉ name → (∀ c ∈ name, Text.isBlank c = false) → ':' ∉ back →
    m.illustrated (front ++ ':' :: (name ++ ':' :: back)) =
      front ++ ((m.picture name).getD (':' :: (name ++ [':'])) ++ back)
  illustrated_uncoded : ∀ cs, (∀ name, ':' :: (name ++ [':']) <:+: cs → m.picture name = none) → m.illustrated cs = cs
  /-- what is replaced loses its colons -/
  illustrated_colons : ∀ cs, m.illustrated cs = cs ∨ (m.illustrated cs).count ':' < cs.count ':'
  picture_colon : ∀ name text, m.picture name = some text → ':' ∉ text
  print_of_room : ∀ width cs, Spaced (m.shown cs) → m.span cs ≤ width → (t.print width cs).toList = m.shown cs ++ ['\n']
  draw_of_room : ∀ width g, Headed g.columns → m.room g ≤ width →
    m.Lists (t.draw width g).toList g.rows (fun row => row.map m.shown) (List.Forall₂ m.Suits g.columns)

namespace Manual

variable {m : Manual} {α β : Type} {text : List Char} {xs : List α} {texts : α → List (List Char)} {clean : α → Prop}

theorem lists_nil (m : Manual) (text : List Char) (texts : α → List (List Char)) (clean : α → Prop) :
    m.Lists text [] texts clean :=
  ⟨text, [], fun _ => [], by simp, fun _ hx => nomatch hx⟩

/-- text around it does not matter -/
theorem Lists.around (h : m.Lists text xs texts clean) (before after : List Char) :
    m.Lists (before ++ text ++ after) xs texts clean := by
  obtain ⟨head, tail, lines, rfl, hlines⟩ := h
  refine ⟨before ++ head, tail ++ after, lines, ?_, hlines⟩
  simp only [List.append_assoc]

theorem Lists.of_map {f : α → β} {texts : β → List (List Char)} {tidy : β → Prop}
    (h : m.Lists text (xs.map f) texts tidy) (htidy : ∀ x ∈ xs, clean x → tidy (f x)) :
    m.Lists text xs (texts ∘ f) clean := by
  obtain ⟨head, tail, lines, rfl, hlines⟩ := h
  refine ⟨head, tail, lines ∘ f, ?_, fun x hx hclean => hlines (f x) (List.mem_map_of_mem hx) (htidy x hx hclean)⟩
  rw [List.flatMap_map]
  rfl

/-- there is a row for each of them that is clean -/
theorem Lists.exists_row {x : α} (h : m.Lists text xs texts clean) (hx : x ∈ xs) (hclean : clean x) :
    ∃ head line tail, text = head ++ (line ++ ['\n']) ++ tail ∧ m.IsRow (texts x) line := by
  obtain ⟨head, tail, lines, rfl, hlines⟩ := h
  obtain ⟨line, hline, hrow⟩ := hlines x hx hclean
  obtain ⟨front, back, rfl⟩ := List.append_of_mem hx
  refine ⟨head ++ front.flatMap lines, line, back.flatMap lines ++ tail, ?_, hrow⟩
  rw [List.flatMap_append, List.flatMap_cons, hline]
  simp only [List.append_assoc]

end Manual

end Report

end SignalWiring
