/-
The standard toolkit follows a manual.

So there is a toolkit to which the results about the console report apply, and it is the one that reports are printed with.

- `Grid.row_of_room`: a row of a table that has room.
- `Markup.shown_styled`, `Markup.shown_heading`: the tags of a style.
- `Toolkit.follows_standard`: each promise of the manual.
- `Markup.lawful_numbers`: the pictures that have a number for a name.
-/
import Mathlib.Data.List.GetD
import SignalWiring.Proofs.Layout
import SignalWiring.Proofs.Verbatim
import SignalWiring.Report.Standard

namespace SignalWiring

open Text (Spaced cells)

/-! ## Characters -/

namespace Text

/-- no blank is printable but a space -/
theorem eq_space_of_printable {c : Char} (h : isPrintable c = true) (hblank : isBlank c = true) : c = ' ' := by
  rw [isPrintable] at h
  split at h
  · rename_i hascii
    have hle : 32 ≤ c.toNat := by simpa using h
    have hcode : c.toNat = 32 := by
      simp only [isBlank, Bool.or_eq_true, Bool.and_eq_true, decide_eq_true_eq, beq_iff_eq] at hblank
      omega
    exact Char.toNat_inj.1 hcode
  · rename_i hascii
    -- every other blank is in one of five ranges of what is not printable
    have hunprintable : unprintable.has c = true := by
      have hrange : ∀ lo hi, (lo, hi) ∈ unprintable → lo ≤ c.toNat → c.toNat ≤ hi → unprintable.has c = true :=
        fun lo hi hmem hlo hhi => Ranges.has_iff.2 ⟨(lo, hi), hmem, hlo, hhi⟩
      simp only [isBlank, Bool.or_eq_true, Bool.and_eq_true, decide_eq_true_eq, beq_iff_eq] at hblank
      by_cases hlatin : c.toNat ≤ 160
      · exact hrange 127 160 (by decide) (by omega) hlatin
      · by_cases hogham : c.toNat ≤ 5760
        · exact hrange 5760 5760 (by decide) (by omega) hogham
        · by_cases hquad : c.toNat ≤ 8207
          · exact hrange 8191 8207 (by decide) (by omega) hquad
          · by_cases hseparator : c.toNat ≤ 8239
            · exact hrange 8232 8239 (by decide) (by omega) hseparator
            · by_cases hmath : c.toNat ≤ 8303
              · exact hrange 8287 8303 (by decide) (by omega) hmath
              · exact hrange 12284 12288 (by decide) (by omega) (by omega)
    rw [hunprintable] at h
    cases h

theorem isAction_of_printable {c : Char} (h : isPrintable c = true) : Report.Markup.isAction c = false := by
  by_contra haction
  rw [Bool.not_eq_false, Report.Markup.isAction] at haction
  simp only [List.contains_eq_mem, List.mem_cons, List.not_mem_nil, or_false, decide_eq_true_eq] at haction
  have hcontrol : c.toNat < 32 := by omega
  rw [isPrintable, if_pos (by omega)] at h
  have hle : 32 ≤ c.toNat := by simpa using h
  omega

theorem toNat_of_isAlpha {c : Char} (h : c.isAlpha = true) : 65 ≤ c.toNat ∧ c.toNat ≤ 122 := by
  rcases Bool.or_eq_true_iff.1 h with hupper | hlower
  · obtain ⟨hlow, hhigh⟩ : 'A'.val ≤ c.val ∧ c.val ≤ 'Z'.val := of_decide_eq_true hupper
    exact ⟨UInt32.le_iff_toNat_le.1 hlow, (UInt32.le_iff_toNat_le.1 hhigh).trans (by decide)⟩
  · have hrange : ('a'.val ≤ c.val && c.val ≤ 'z'.val) = true := hlower
    rw [Bool.and_eq_true, decide_eq_true_eq, decide_eq_true_eq] at hrange
    exact ⟨Nat.le_trans (by decide) (UInt32.le_iff_toNat_le.1 hrange.1), UInt32.le_iff_toNat_le.1 hrange.2⟩

/-- a word takes at least one cell -/
theorem one_le_cells {cs : List Char} (hne : cs ≠ []) (h : cs.all Char.isAlpha = true) : 1 ≤ cells cs := by
  cases cs with
  | nil => exact absurd rfl hne
  | cons c rest =>
    obtain ⟨hlow, hhigh⟩ := toNat_of_isAlpha (List.all_eq_true.1 h c List.mem_cons_self)
    have hcell : cellsOf c = 1 := by
      rw [cellsOf, if_neg (by simp; omega), if_pos (by omega)]
    rw [cells, hcell]
    omega

theorem spaced_of_word {cs : List Char} (h : cs.all Char.isAlpha = true) : Spaced cs := by
  intro c hc hblank
  obtain ⟨hlow, hhigh⟩ := toNat_of_isAlpha (List.all_eq_true.1 h c hc)
  simp only [isBlank, Bool.or_eq_true, Bool.and_eq_true, decide_eq_true_eq, beq_iff_eq] at hblank
  omega

end Text

namespace Report

open Text (Printable)

/-! ## Tables that have room -/

namespace Grid

/-- a text in a cell of its column -/
def place (align : Align) (w : ℕ) (cs : List Char) : List Char :=
  match align with
  | .left => cell w cs
  | .center => middle w cs

theorem inCell_place (align : Align) (w : ℕ) (cs : List Char) : InCell cs (place align w cs) := by
  cases align with
  | left => exact ⟨0, _, rfl⟩
  | center => exact ⟨_, _, rfl⟩

/-- the row of a table with these texts in its cells -/
def row (g : Grid) (width : ℕ) (texts : List (List Char)) : List Char :=
  Border.row.frame ((g.columns.zip ((g.widths width).zip texts)).map fun d => place d.1.align d.2.1 d.2.2)

/-- a text fits into a column: it is one line, and one in the middle has no blank at its end -/
structure Clean (c : Column) (cs : List Char) : Prop where
  spaced : Spaced cs
  center : c.align = .center → Text.trimEnd cs = cs

section Rows

variable {g : Grid} {width : ℕ} {texts : List (List Char)}

/-- a cell of a row, with its width, stands in some column of the table -/
theorem exists_column {d : Column × ℕ × List Char} (htexts : texts ∈ g.rows)
    (hd : d ∈ g.columns.zip ((g.cellsByColumn.map natural).zip texts)) :
    (d.1, d.2.2) ∈ g.columns.zip texts ∧
      ∃ column, d.2.1 = natural column ∧ d.1.header ∈ column ∧ d.2.2 ∈ column := by
  obtain ⟨i, hi, rfl⟩ := List.mem_iff_getElem.1 hd
  simp only [List.length_zip, List.length_map] at hi
  have hcolumn : i < g.columns.length := by omega
  have hwidth : i < g.cellsByColumn.length := by omega
  have htext : i < texts.length := by omega
  simp only [List.getElem_zip, List.getElem_map]
  refine ⟨?_, g.cellsByColumn[i], rfl, ?_, ?_⟩
  · rw [← List.getElem_zip (h := by rw [List.length_zip]; omega)]
    exact List.getElem_mem _
  · simp [cellsByColumn]
  · have hcell : texts[i] = texts.getD i [] := (List.getD_eq_getElem texts [] htext).symm
    rw [hcell]
    simp only [cellsByColumn, List.getElem_map, List.getElem_zipIdx, Nat.zero_add]
    exact List.mem_cons_of_mem _ (List.mem_map_of_mem htexts)

/-- a clean text that has room stands in its cell -/
theorem cellLines_of_clean {c : Column} {w : ℕ} {cs : List Char} (h : Clean c cs) (hroom : cells cs + 2 ≤ w)
    (hw : 3 ≤ w) : cellLines c.align w cs = [place c.align w cs] := by
  cases halign : c.align with
  | left => exact cellLines_left h.spaced hroom hw
  | center => exact cellLines_center h.spaced hroom hw (h.center halign)

theorem cells_place {align : Align} {w : ℕ} {cs : List Char} (h : cells cs + 2 ≤ w) : cells (place align w cs) = w := by
  cases align with
  | left => exact cells_cell h
  | center => exact cells_middle h

/-- the cells of a row, in which every text has room, are as wide as the columns -/
theorem cells_frame_places {columns : List Column} {ws : List ℕ} (hne : columns ≠ [])
    (hcolumns : ws.length = columns.length) (htexts : texts.length = columns.length)
    (hroom : ∀ d ∈ columns.zip (ws.zip texts), cells d.2.2 + 2 ≤ d.2.1) :
    cells (Border.row.frame ((columns.zip (ws.zip texts)).map fun d => place d.1.align d.2.1 d.2.2)) =
      total ws + columns.length + 1 := by
  have hlength : (columns.zip (ws.zip texts)).length = columns.length := by
    rw [List.length_zip, List.length_zip]
    omega
  have hpieces : ((columns.zip (ws.zip texts)).map fun d => place d.1.align d.2.1 d.2.2) ≠ [] := by
    intro hempty
    have hzero := congrArg List.length hempty
    rw [List.length_map, hlength] at hzero
    exact hne (List.eq_nil_of_length_eq_zero hzero)
  have hwidths : ((columns.zip (ws.zip texts)).map fun d => place d.1.align d.2.1 d.2.2).map cells = ws := by
    calc ((columns.zip (ws.zip texts)).map fun d => place d.1.align d.2.1 d.2.2).map cells
        = (columns.zip (ws.zip texts)).map (Prod.fst ∘ Prod.snd) := by
          rw [List.map_map]
          exact List.map_congr_left fun d hd => cells_place (hroom d hd)
      _ = (ws.zip texts).map Prod.fst := by
          rw [← List.map_map, List.map_snd_zip]
          rw [List.length_zip]
          omega
      _ = ws := List.map_fst_zip (by omega)
  rw [Border.cells_frame .row (by decide +kernel) hpieces, hwidths, List.length_map, hlength]

/-- **Rows that have room.** In a table that has room a row of clean cells is one line, which has room on the console. -/
theorem row_of_room (hroom : g.room ≤ width) (hheaded : Headed g.columns) (htexts : texts ∈ g.rows)
    (hlength : texts.length = g.columns.length) (hclean : ∀ d ∈ g.columns.zip texts, Clean d.1 d.2) :
    g.rowLines .row (g.widths width) texts = [g.row width texts] ∧ cells (g.row width texts) ≤ width := by
  obtain ⟨hcolumn, hheaders⟩ := hheaded
  have hne : g.columns ≠ [] := List.isEmpty_eq_false_iff.1 hcolumn
  have hrooms : ∀ d ∈ g.columns.zip ((g.cellsByColumn.map natural).zip texts),
      Clean d.1 d.2.2 ∧ cells d.2.2 + 2 ≤ d.2.1 ∧ 3 ≤ d.2.1 := by
    intro d hd
    obtain ⟨hpair, column, hwidth, hheaderIn, hcellIn⟩ := exists_column htexts hd
    obtain ⟨hword, halpha⟩ := hheaders d.1 (List.of_mem_zip hd).1
    have hpos := Text.one_le_cells hword halpha
    have hcell := hclean _ hpair
    have hheader := cells_le_natural (Text.spaced_of_word halpha) hheaderIn
    exact ⟨hcell, hwidth ▸ cells_le_natural hcell.spaced hcellIn, by omega⟩
  have hcolumns : (g.cellsByColumn.map natural).length = g.columns.length := by simp [cellsByColumn]
  rw [row, widths_of_room hroom]
  refine ⟨rowLines_of_single (fun d => place d.1.align d.2.1 d.2.2) fun d hd => ?_, ?_⟩
  · obtain ⟨hcell, hwide, hw⟩ := hrooms d hd
    exact cellLines_of_clean hcell hwide hw
  · rw [cells_frame_places hne hcolumns hlength fun d hd => (hrooms d hd).2.1]
    exact hroom

/-- each text stands in a cell of its row -/
theorem forall₂_inCell {columns : List Column} {ws : List ℕ} (hcolumns : ws.length = columns.length)
    (htexts : texts.length = columns.length) :
    List.Forall₂ InCell texts ((columns.zip (ws.zip texts)).map fun d => place d.1.align d.2.1 d.2.2) := by
  refine List.forall₂_iff_get.2 ⟨?_, fun i hi hi' => ?_⟩
  · rw [List.length_map, List.length_zip, List.length_zip]
    omega
  · simp only [List.get_eq_getElem, List.getElem_map, List.getElem_zip]
    exact inCell_place _ _ _

end Rows

end Grid

/-! ## Tags of a style -/

namespace Markup

section Styled

variable {gallery : Gallery} {cs front rest style : List Char}

theorem tagEnd?_of_free (h : ∀ c ∈ front, c ≠ ']' ∧ c ≠ '[') :
    tagEnd? (front ++ ']' :: rest) = some (front ++ [']'], rest) := by
  induction front with
  | nil => rw [List.nil_append, tagEnd?, if_pos rfl, List.nil_append]
  | cons c more ih =>
    obtain ⟨hclose, hopen⟩ := h c List.mem_cons_self
    rw [List.cons_append, tagEnd?, if_neg hclose, if_neg hopen, ih fun d hd => h d (List.mem_cons_of_mem _ hd)]
    rfl

theorem opensTag_of_isLower {c : Char} (h : c.isLower = true) : opensTag c = true := by
  have hrange : ('a' ≤ c && c ≤ 'z') = true := h
  rw [opensTag, hrange]
  rfl

theorem ne_of_isStyle (h : IsStyle style) : ∀ c ∈ style, c ≠ ']' ∧ c ≠ '[' := by
  intro c hc
  have hchar := List.all_eq_true.1 h.1 c hc
  constructor <;> rintro rfl <;> exact absurd hchar (by decide)

theorem tag?_style (h : IsStyle style) (rest : List Char) :
    tag? ('[' :: (style ++ ']' :: rest)) = some ('[' :: (style ++ [']']), rest) := by
  cases style with
  | nil => exact absurd h.2 (by decide)
  | cons c more =>
    have hfree : ∀ d ∈ more, d ≠ ']' ∧ d ≠ '[' := fun d hd => ne_of_isStyle h d (List.mem_cons_of_mem _ hd)
    rw [List.cons_append, tag?, if_pos (opensTag_of_isLower h.2), tagEnd?_of_free hfree]
    rfl

theorem tag?_close (h : IsStyle style) (rest : List Char) :
    tag? ('[' :: '/' :: (style ++ ']' :: rest)) = some ('[' :: '/' :: (style ++ [']']), rest) := by
  rw [tag?, if_pos (by decide), tagEnd?_of_free (ne_of_isStyle h)]
  rfl

/-- the tags of a style are read, and its text is one stretch -/
theorem stretches_styled (hstyle : IsStyle style) (hbackslash : '\\' ∉ cs) (hbracket : '[' ∉ cs) (rest : List Char) :
    stretches [] 0 (styled style cs ++ rest) = [[], [], cs, []] ++ stretches [] 0 rest := by
  have hne : '[' ≠ '\\' := by decide
  have hsplit : styled style cs ++ rest = '[' :: (style ++ ']' :: (cs ++ '[' :: '/' :: (style ++ ']' :: rest))) := by
    simp [styled]
  rw [hsplit, stretches_of_some hne (tag?_style hstyle _), stretches_plain [] hbackslash hbracket,
    stretches_of_some hne (tag?_close hstyle _)]
  simp

/-- an inert text has no codes -/
theorem interpreted_inert (h : Inert cs) : interpreted gallery cs = cs := by
  have hcodes : codes cs = [] := by
    refine List.eq_nil_iff_forall_not_mem.2 fun name hname => ?_
    have hcount := (infix_of_mem_codes hname).sublist.count_le ':'
    have htwo : 2 ≤ (':' :: (name ++ [':'])).count ':' := by simp [List.count_append]
    have hone := h.2
    omega
  have hescaped : ¬['\\', '['] <:+: cs := fun hstands => h.not_mem.2 (hstands.subset List.mem_cons_self)
  rw [interpreted, dropBackslash_eq_self_iff.2 hescaped, pictures_eq_self]
  rw [hcodes]
  exact fun name hname => absurd hname List.not_mem_nil

theorem filter_inert (h : Inert cs) : (cs.filter fun c => !isAction c) = cs :=
  List.filter_eq_self.2 fun c hc => by
    rw [Text.isAction_of_printable (h.1 c hc).1]
    rfl

theorem shown_eq (gallery : Gallery) (cs : List Char) :
    shown gallery cs = ((stretches [] 0 cs).flatMap (interpreted gallery)).filter fun c => !isAction c := rfl

theorem shown_inert (h : Inert cs) : shown gallery cs = cs := by
  obtain ⟨hbracket, hbackslash⟩ := h.not_mem
  have hone : stretches [] 0 cs = [cs] := by
    have hplain := stretches_plain [] hbackslash hbracket []
    rw [List.append_nil, List.append_nil] at hplain
    rw [hplain, stretches, List.reverse_reverse, List.replicate_zero, List.append_nil]
  rw [shown_eq, hone, List.flatMap_singleton, interpreted_inert h, filter_inert h]

/-- **Styles.** A text shows after a styled one what it shows alone. -/
theorem shown_styled_append (gallery : Gallery) (hstyle : IsStyle style) (h : Inert cs) (rest : List Char) :
    shown gallery (styled style cs ++ rest) = cs ++ shown gallery rest := by
  rw [shown_eq, stretches_styled hstyle h.not_mem.2 h.not_mem.1]
  simp only [List.cons_append, List.nil_append, List.flatMap_cons, interpreted_nil, interpreted_inert h,
    List.filter_append, filter_inert h]
  rfl

theorem shown_styled (hstyle : IsStyle style) (h : Inert cs) : shown gallery (styled style cs) = cs := by
  have hshown := shown_styled_append gallery hstyle h []
  have hnone : shown gallery [] = [] := shown_inert ⟨fun c hc => absurd hc List.not_mem_nil, Nat.zero_le 1⟩
  rwa [hnone, List.append_nil, List.append_nil] at hshown

/-- a blank before an escaped text -/
theorem shown_blank (gallery : Gallery) (cs : List Char) :
    shown gallery (' ' :: escape cs) = ' ' :: shown gallery (escape cs) := by
  have hplain : stretches [] 0 ([' '] ++ escape cs) = stretches [' '] 0 (escape cs) :=
    stretches_plain [] (by decide) (by decide) (escape cs)
  rw [← List.singleton_append, shown_eq, hplain, stretches_blank, shown_eq]
  rfl

end Styled

end Markup

/-! ## The promises -/

namespace Markup

section Escaped

variable {gallery : Gallery} {cs : List Char}

/-- a single backslash at the end is one that no other stands before -/
theorem ending_of_trailing (h : trailing cs = 1) : ['\\'] <:+ cs ∧ ¬['\\', '\\'] <:+ cs := by
  rcases List.eq_nil_or_concat cs with rfl | ⟨front, c, rfl⟩
  · cases h
  · rw [List.concat_eq_append, trailing_concat] at h
    split_ifs at h with hc
    subst hc
    refine ⟨⟨front, by simp⟩, ?_⟩
    rintro ⟨more, hmore⟩
    have hfront : front ++ ['\\'] = more ++ ['\\'] ++ ['\\'] := by
      rw [← List.concat_eq_append, ← hmore, List.append_assoc]
      rfl
    rw [List.append_cancel_right hfront, trailing_concat, if_pos rfl] at h
    omega

theorem no_action_of_printable {s : String} (h : Printable s) : ∀ c ∈ s.toList, isAction c = false := fun c hc =>
  Text.isAction_of_printable (h c hc)

/-- a printable text shows as one line -/
theorem spaced_shown (hgallery : gallery.Lawful) {s : String} (h : Printable s) :
    Spaced (shown gallery (escape s.toList)) := fun c hc =>
  (mem_of_mem_shown hgallery.plain (fun d hd =>
    ⟨Text.isAction_of_printable (h d hd), Text.eq_space_of_printable (h d hd)⟩) c hc).2

theorem illustrated_colons (hgallery : gallery.Lawful) (cs : List Char) :
    pictures gallery cs = cs ∨ (pictures gallery cs).count ':' < cs.count ':' := by
  have hcount := count_pictures hgallery cs
  by_cases hnone : pictured gallery cs = 0
  · exact Or.inl (pictures_eq_self (pictured_eq_zero_iff.1 hnone))
  · exact Or.inr (by omega)

end Escaped

/-! ### Pictures with a number for a name -/

theorem picture?_eq_some {name : List Char} {c : Char} (h : picture? name = some c) : c = '💯' ∨ c = '🔢' := by
  unfold picture? at h
  split at h
  · exact Or.inl (Option.some.inj h).symm
  · exact Or.inr (Option.some.inj h).symm
  · cases h

/-- one of these pictures is one character, and the mark of a variant may follow it -/
theorem subset_of_numbers {name text : List Char} (h : numbers name = some text) :
    text ⊆ ['💯', '🔢', '\uFE0E', '\uFE0F'] := by
  simp only [numbers] at h
  split_ifs at h
  all_goals
    obtain ⟨c, hc, rfl⟩ := Option.map_eq_some_iff.1 h
    rcases picture?_eq_some hc with rfl | rfl <;> decide

theorem lawful_numbers : numbers.Lawful := by
  constructor
  · intro name text h hcolon
    exact absurd (subset_of_numbers h hcolon) (by decide)
  · intro name text h c hc
    have hplain : (['💯', '🔢', '\uFE0E', '\uFE0F'].all fun d => !isAction d && !Text.isBlank d) = true := by decide
    have hchar := List.all_eq_true.1 hplain c (subset_of_numbers h hc)
    rw [Bool.and_eq_true, Bool.not_eq_true', Bool.not_eq_true'] at hchar
    obtain ⟨haction, hblank⟩ := hchar
    refine ⟨haction, fun h => ?_⟩
    rw [hblank] at h
    cases h

end Markup

def Manual.standard (gallery : Markup.Gallery) : Manual where
  shown := Markup.shown gallery
  parts := Markup.pieces []
  illustrated := Markup.pictures gallery
  picture := gallery
  bar := '│'
  span cs := max (cells (Markup.shown gallery cs)) (Markup.shown gallery cs).length
  room g := (Toolkit.shownGrid gallery g).room

namespace Toolkit

variable {gallery : Markup.Gallery}

def printed (width : ℕ) (line : List Char) : List Char := Text.cutCells width line ++ ['\n']

theorem toList_printLines (width : ℕ) (lines : List (List Char)) :
    (printLines width lines).toList = lines.flatMap (printed width) := String.toList_ofList

theorem print_of_room {width : ℕ} {cs : List Char} (h : Spaced (Markup.shown gallery cs))
    (hroom : (Manual.standard gallery).span cs ≤ width) :
    ((standard gallery).print width cs).toList = Markup.shown gallery cs ++ ['\n'] := by
  obtain ⟨hcells, hlength⟩ := max_le_iff.1 hroom
  change (printLines width (textLines width (Markup.shown gallery cs))).toList = _
  rw [toList_printLines, textLines, Text.wrap_of_room _ h hcells,
    Text.dropOverhang_of_length (hlength.trans (Nat.le_max_left _ _)), List.map_singleton, Text.shorten_of_le hcells,
    List.flatMap_singleton, printed, Text.cutCells_of_room hcells]

theorem clean_of_suits {columns : List Column} {row : List (List Char)}
    (h : List.Forall₂ (Manual.standard gallery).Suits columns row) :
    ∀ d ∈ columns.zip (row.map (Markup.shown gallery)), Grid.Clean d.1 d.2 := by
  intro d hd
  rw [List.zip_map_right] at hd
  obtain ⟨e, he, rfl⟩ := List.mem_map.1 hd
  obtain ⟨hspaced, hcenter⟩ := (List.forall₂_iff_zip.1 h).2 he
  exact ⟨hspaced, hcenter⟩

theorem draw_of_room {width : ℕ} {g : Grid} (hheaded : Headed g.columns) (hroom : (Manual.standard gallery).room g ≤ width) :
    (Manual.standard gallery).Lists ((standard gallery).draw width g).toList g.rows
      (fun row => row.map (Markup.shown gallery)) (List.Forall₂ (Manual.standard gallery).Suits g.columns) := by
  obtain ⟨front, back, hlines⟩ : ∃ front back : List (List Char), (shownGrid gallery g).lines width = front ++
      (shownGrid gallery g).rows.flatMap ((shownGrid gallery g).rowLines .row ((shownGrid gallery g).widths width)) ++
      back := ⟨_, _, rfl⟩
  refine ⟨front.flatMap (printed width), back.flatMap (printed width), fun row =>
    ((shownGrid gallery g).rowLines .row ((shownGrid gallery g).widths width)
      (row.map (Markup.shown gallery))).flatMap (printed width), ?_, fun row hrow hsuits => ?_⟩
  · change (printLines width ((shownGrid gallery g).lines width)).toList = _
    rw [toList_printLines, hlines]
    simp only [shownGrid, List.flatMap_map, List.flatMap_append, List.flatMap_assoc]
  · have hin : row.map (Markup.shown gallery) ∈ (shownGrid gallery g).rows := List.mem_map_of_mem hrow
    have hlength : (row.map (Markup.shown gallery)).length = (shownGrid gallery g).columns.length :=
      (List.length_map _).trans hsuits.length_eq.symm
    have hclean := clean_of_suits hsuits
    obtain ⟨hline, hwide⟩ := Grid.row_of_room (g := shownGrid gallery g) hroom hheaded hin hlength hclean
    refine ⟨(shownGrid gallery g).row width (row.map (Markup.shown gallery)), ?_, _, rfl, ?_⟩
    · simp only [hline, List.flatMap_singleton, printed, Text.cutCells_of_room hwide]
    · have hwidths : ((shownGrid gallery g).widths width).length = (shownGrid gallery g).columns.length := by
        rw [Grid.widths_of_room hroom]
        simp [Grid.cellsByColumn]
      exact Grid.forall₂_inCell hwidths hlength

/-- **The standard toolkit** follows a manual, with any lawful pictures. -/
theorem follows_standard (hgallery : gallery.Lawful) : (standard gallery).Follows (.standard gallery) where
  shown_inert _ h := Markup.shown_inert h
  shown_styled _ _ hstyle h := Markup.shown_styled hstyle h
  shown_heading style cs s hstyle h _ := by
    have hblank := Markup.shown_blank gallery s.toList
    have hshown := Markup.shown_styled_append gallery hstyle h (' ' :: Markup.escape s.toList)
    rwa [hblank] at hshown
  spaced_escape _ h := Markup.spaced_shown hgallery h
  shown_escape s h hharmless := by
    have hend : ¬Markup.trailing s.toList = 1 := fun hone =>
      absurd (hharmless.ending (Markup.ending_of_trailing hone).1) (Markup.ending_of_trailing hone).2
    have hshown := Markup.shown_escape hgallery (Markup.no_action_of_printable h)
    rw [if_neg hend, List.replicate_zero, List.append_nil] at hshown
    refine hshown.trans (List.flatMap_congr fun p hp => ?_)
    rw [Markup.interpreted, Markup.dropBackslash_eq_self_iff.2 (hharmless.brackets p hp)]
    rfl
  flatten_parts cs := Markup.flatten_pieces [] cs
  parts_untagged _ h := Markup.pieces_of_no_bracket [] h
  illustrated_code _ _ _ hfront hname hblank hback := Markup.pictures_location hfront hname hblank hback
  illustrated_uncoded _ h := Markup.pictures_eq_self fun name hname => h name (Markup.infix_of_mem_codes hname)
  illustrated_colons cs := Markup.illustrated_colons hgallery cs
  picture_colon := hgallery.colon
  print_of_room _ _ h hroom := print_of_room h hroom
  draw_of_room _ _ hheaded hroom := draw_of_room hheaded hroom

end Toolkit

end Report

end SignalWiring
