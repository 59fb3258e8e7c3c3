/-
Texts that have room.

A text without any blank but spaces is one line. When it has room it is neither wrapped nor cut: what the layout does to
it is padding with spaces (`alignLeft_dropOverhang`). Spaces at its end may be dropped and are then padded again.

A table that has room has the widths of its widest cells, and a row whose cells are single lines is one line,
with every cell in it as it stands (`Grid.rowLines_of_single`).

- `wrap_of_room`: a text that has room is wrapped into one line.
- `Grid.widths_of_room`: the widths of a table that has room.
- `Grid.cellLines_left`, `Grid.cellLines_center`: what a column makes of a cell.
- `Grid.rowLines_of_single`: what a table makes of a row.
-/
import Mathlib.Data.List.SplitBy
import Mathlib.Data.List.TakeWhile
import Mathlib.Tactic
import SignalWiring.Path
import SignalWiring.Proofs.Manual
import SignalWiring.Report.Grid

namespace SignalWiring

namespace Text

section Lines

variable {o : Overflow} {w p : ℕ} {c : Char} {cs line : List Char} {ws : List (List Char)}

/-! ## One line -/

theorem Spaced.not_mem (h : Spaced cs) (hblank : isBlank c = true) (hc : c ≠ ' ') : c ∉ cs :=
  fun hmem => hc (h c hmem hblank)

theorem Spaced.fields_eq (h : Spaced cs) : fields '\n' cs = [cs] :=
  Path.fields_eq_singleton (h.not_mem (by decide) (by decide))

theorem expandTabs_eq_self (h : '\t' ∉ cs) : expandTabs p cs = cs := by
  induction cs generalizing p with
  | nil => rfl
  | cons c rest ih =>
    have hc : c ≠ '\t' := fun hc => h (hc ▸ List.mem_cons_self)
    rw [expandTabs, if_neg hc, ih fun hrest => h (List.mem_cons_of_mem _ hrest)]

/-- the words make up the text -/
theorem flatten_words (cs : List Char) : (words cs).flatten = cs := by
  have hsplit : (cs.splitBy fun a b => !isBlank a || isBlank b).flatten = cs := List.flatten_splitBy _ _
  unfold words
  split
  · rename_i lead word rest heq
    rw [heq] at hsplit
    split
    · rw [List.flatten_cons, List.append_assoc]
      exact hsplit
    · exact hsplit
  · exact hsplit

theorem cells_trimEnd_le (cs : List Char) : cells (trimEnd cs) ≤ cells cs := by
  obtain ⟨tail, hcs, -⟩ := exists_trimEnd cs
  have hcells := congrArg cells hcs
  rw [cells_append] at hcells
  omega

theorem Spaced.eq_replicate {tail : List Char} (h : Spaced cs) (hsub : tail ⊆ cs) (hblank : ∀ c ∈ tail, isBlank c = true) :
    tail = List.replicate tail.length ' ' := List.eq_replicate_iff.2 ⟨rfl, fun c hc => h c (hsub hc) (hblank c hc)⟩

/-- words that have room go on the line -/
theorem breakAfter_of_room (h : cells line + cells ws.flatten ≤ w) : breakAfter o w line ws = [line ++ ws.flatten] := by
  induction ws generalizing line with
  | nil => rw [breakAfter, List.flatten_nil, List.append_nil]
  | cons word rest ih =>
    rw [List.flatten_cons, cells_append] at h
    have htrimmed := cells_trimEnd_le word
    have hroom : cells line + cells (trimEnd word) ≤ w := by omega
    have hnext : cells (line ++ word) + cells rest.flatten ≤ w := by
      rw [cells_append]
      omega
    rw [breakAfter, if_pos hroom, ih hnext, List.flatten_cons, List.append_assoc]

/-- **Wrapping.** A text that has room is one line, if need be without some of the spaces at its end. -/
theorem wrap_of_room (o : Overflow) (h : Spaced cs) (hroom : cells cs ≤ w) : wrap o w cs = [dropOverhang w cs] := by
  have hflat := flatten_words cs
  have hcells : cells ([] : List Char) + cells (words cs).flatten ≤ w := by
    rw [hflat, cells, Nat.zero_add]
    exact hroom
  rw [wrap, h.fields_eq, List.flatMap_singleton, expandTabs_eq_self (h.not_mem (by decide) (by decide)),
    breakAfter_of_room hcells, hflat, List.nil_append]
  rfl

/-- what is dropped are spaces -/
theorem exists_dropOverhang (w : ℕ) (h : Spaced cs) : ∃ m, cs = dropOverhang w cs ++ List.replicate m ' ' := by
  obtain ⟨tail, hcs, hblank⟩ := exists_trimEnd cs
  have hdropped : ∀ c ∈ cs.drop (max w (trimEnd cs).length), isBlank c = true := by
    intro c hc
    have hc : c ∈ cs.drop (trimEnd cs).length :=
      (List.drop_sublist_drop_left cs (Nat.le_max_right w (trimEnd cs).length)).subset hc
    rw [hcs, List.drop_left' (congrArg (fun x => (trimEnd x).length) hcs)] at hc
    exact hblank c hc
  refine ⟨(cs.drop (max w (trimEnd cs).length)).length, ?_⟩
  rw [← h.eq_replicate (List.drop_subset _ _) hdropped]
  exact (List.take_append_drop _ cs).symm

/-- **Padding.** The spaces that are dropped are padded again. -/
theorem alignLeft_dropOverhang (o : Overflow) (h : Spaced cs) (hroom : cells cs ≤ w) :
    alignLeft o w (dropOverhang w cs) = cs ++ List.replicate (w - cells cs) ' ' := by
  obtain ⟨m, hcs⟩ := exists_dropOverhang w h
  have hcells := congrArg cells hcs
  rw [cells_append, cells_replicate_blank] at hcells
  have hshort : cells (dropOverhang w cs) ≤ w := by omega
  have hfree : w - cells (dropOverhang w cs) = m + (w - cells cs) := by omega
  rw [alignLeft, shorten_of_le hshort, hfree, List.replicate_add, ← List.append_assoc, ← hcs]

theorem dropOverhang_of_length (h : cs.length ≤ max w (trimEnd cs).length) : dropOverhang w cs = cs :=
  List.take_of_length_le h

theorem cutCells_of_room (h : cells cs ≤ w) : cutCells w cs = cs := by
  induction cs generalizing w with
  | nil => rw [cutCells]
  | cons c rest ih =>
    rw [cells] at h
    rw [cutCells, if_pos (by omega), ih (by omega)]

end Lines

end Text

namespace Report

open Text (Spaced cells)

namespace Border

/-- the cells of a line between the characters of a border, each of one cell -/
theorem cells_frame (b : Border) (hb : Text.cellsOf b.start = 1 ∧ Text.cellsOf b.between = 1 ∧ Text.cellsOf b.stop = 1)
    {pieces : List (List Char)} (hne : pieces ≠ []) :
    cells (b.frame pieces) = Grid.total (pieces.map cells) + pieces.length + 1 := by
  have hjoin : ∀ {ps : List (List Char)}, ps ≠ [] →
      cells (Text.joinWith [b.between] ps) + 1 = Grid.total (ps.map cells) + ps.length := by
    intro ps
    induction ps with
    | nil => exact fun h => absurd rfl h
    | cons p rest ih =>
      intro _
      cases rest with
      | nil => simp [Text.joinWith, Grid.total]
      | cons q more =>
        have hrest := ih (List.cons_ne_nil q more)
        rw [Text.joinWith, Text.cells_append, Text.cells_append, List.map_cons, Grid.total, List.length_cons]
        simp only [cells, hb.2.1] at hrest ⊢
        omega
  have hpieces := hjoin hne
  rw [frame, cells, Text.cells_append, hb.1, cells, cells, hb.2.2]
  omega

end Border

namespace Grid

/-! ## Widths -/

/-- the width of a column that nothing narrows: its widest line, and a blank on each side -/
def natural (column : List (List Char)) : ℕ := (column.map widest).foldl max 0 + 2

/-- the room that a table takes: its columns and the borders between them -/
def room (g : Grid) : ℕ := total (g.cellsByColumn.map natural) + g.columns.length + 1

section Widths

variable {g : Grid} {width limit w : ℕ} {cs : List Char} {column : List (List Char)} {ws : List ℕ}

theorem le_foldl_max {xs : List ℕ} {n : ℕ} (start : ℕ) (h : n ∈ xs) : n ≤ xs.foldl max start := by
  have hstart : ∀ (ys : List ℕ) (m : ℕ), m ≤ ys.foldl max m := by
    intro ys
    induction ys with
    | nil => exact fun m => le_rfl
    | cons y rest ih => exact fun m => (Nat.le_max_left m y).trans (ih _)
  induction xs generalizing start with
  | nil => cases h
  | cons x rest ih =>
    rw [List.foldl_cons]
    rcases List.mem_cons.1 h with rfl | h
    · exact (Nat.le_max_right start n).trans (hstart rest _)
    · exact ih _ h

theorem isBlank_of_isLineEnd {c : Char} (h : isLineEnd c = true) : Text.isBlank c = true := by
  simp only [isLineEnd, List.contains_eq_mem, List.mem_cons, List.not_mem_nil, or_false, decide_eq_true_eq] at h
  rcases h with h | h | h | h | h | h | h <;> simp [Text.isBlank, h]

/-- the widest line of a text that is one line -/
theorem widest_of_spaced (h : Spaced cs) : widest cs = cells cs := by
  have hsame : (cs.map fun c => if isLineEnd c then '\n' else c) = cs := by
    conv_rhs => rw [← List.map_id cs]
    refine List.map_congr_left fun c hc => if_neg fun hend => ?_
    obtain rfl := h c hc (isBlank_of_isLineEnd hend)
    exact absurd hend (by decide)
  rw [widest, hsame, h.fields_eq]
  exact Nat.zero_max _

/-- a text that is one line has room in its column -/
theorem cells_le_natural (h : Spaced cs) (hmem : cs ∈ column) : cells cs + 2 ≤ natural column := by
  have hle := le_foldl_max 0 (List.mem_map_of_mem (f := widest) hmem)
  rw [widest_of_spaced h] at hle
  exact Nat.add_le_add_right hle 2

theorem columnWidth_of_le (h : natural column ≤ limit) : columnWidth limit column = natural column := by
  have htwo : 2 ≤ natural column := Nat.le_add_left 2 _
  rw [columnWidth]
  split_ifs with hzero hsmall
  · omega
  · omega
  · exact Nat.min_eq_right h

theorem le_total (h : w ∈ ws) : w ≤ total ws := by
  induction ws with
  | nil => cases h
  | cons x rest ih =>
    rw [total]
    rcases List.mem_cons.1 h with rfl | h
    · omega
    · have hrest := ih h
      omega

/-- **Widths.** The columns of a table that has room are as wide as they need to be. -/
theorem widths_of_room (h : g.room ≤ width) : g.widths width = g.cellsByColumn.map natural := by
  have htotal : total (g.cellsByColumn.map natural) ≤ width - (g.columns.length + 1) := by
    rw [room] at h
    omega
  have hcolumns : g.cellsByColumn.map (columnWidth (width - (g.columns.length + 1))) = g.cellsByColumn.map natural :=
    List.map_congr_left fun column hcolumn =>
      columnWidth_of_le ((le_total (List.mem_map_of_mem hcolumn)).trans htotal)
  rw [widths, hcolumns, fit_of_le htotal]

end Widths

/-! ## Rows -/

/-- a text in a cell of `w` cells, with a blank before it and blanks after it -/
def cell (w : ℕ) (cs : List Char) : List Char := ' ' :: (cs ++ List.replicate (w - 2 - cells cs) ' ' ++ [' '])

/-- a text in the middle of a cell of `w` cells -/
def middle (w : ℕ) (cs : List Char) : List Char :=
  ' ' :: (List.replicate ((w - 2 - cells cs) / 2) ' ' ++ cs ++
    List.replicate (w - 2 - cells cs - (w - 2 - cells cs) / 2) ' ' ++ [' '])

section Rows

variable {g : Grid} {b : Border} {w : ℕ} {cs : List Char} {texts : List (List Char)} {ws : List ℕ}

theorem cells_cell (h : cells cs + 2 ≤ w) : cells (cell w cs) = w := by
  have hblank : Text.cellsOf ' ' = 1 := by decide
  simp only [cell, cells, Text.cells_append, Text.cells_replicate_blank, hblank]
  omega

theorem cells_middle (h : cells cs + 2 ≤ w) : cells (middle w cs) = w := by
  have hblank : Text.cellsOf ' ' = 1 := by decide
  simp only [middle, cells, Text.cells_append, Text.cells_replicate_blank, hblank]
  omega

/-- a text that has room stands in its cell as it is -/
theorem cellLines_left (h : Spaced cs) (hroom : cells cs + 2 ≤ w) (hw : 3 ≤ w) :
    cellLines .left w cs = [cell w cs] := by
  have hcells : cells cs ≤ w - 2 := by omega
  rw [cellLines, if_neg (Nat.not_lt.2 hw), Text.wrap_of_room _ h hcells, List.map_singleton,
    Text.alignLeft_dropOverhang _ h hcells]
  rfl

/-- and so it does in the middle of a cell, when no blank is at its end -/
theorem cellLines_center (h : Spaced cs) (hroom : cells cs + 2 ≤ w) (hw : 3 ≤ w) (hend : Text.trimEnd cs = cs) :
    cellLines .center w cs = [middle w cs] := by
  have hcells : cells cs ≤ w - 2 := by omega
  have hlength : cs.length ≤ max (w - 2) (Text.trimEnd cs).length := by
    rw [hend]
    exact Nat.le_max_right _ _
  rw [cellLines, if_neg (Nat.not_lt.2 hw), Text.wrap_of_room _ h hcells, List.map_singleton,
    Text.dropOverhang_of_length hlength, Text.alignCenter, hend, Text.shorten_of_le hcells]
  rfl

/-- the lines of a row, cell by cell -/
theorem rowLines_eq (g : Grid) (b : Border) (ws : List ℕ) (texts : List (List Char)) :
    g.rowLines b ws texts =
      (List.range (((g.columns.zip (ws.zip texts)).map fun d => (cellLines d.1.align d.2.1 d.2.2).length).foldl max 1)).map
        fun i => b.frame ((g.columns.zip (ws.zip texts)).map fun d =>
          (cellLines d.1.align d.2.1 d.2.2).getD i (List.replicate d.2.1 ' ')) := by
  simp only [rowLines, List.map_map]
  rfl

/-- **Rows.** A row whose cells are single lines is one line. -/
theorem rowLines_of_single (piece : Column × ℕ × List Char → List Char)
    (h : ∀ d ∈ g.columns.zip (ws.zip texts), cellLines d.1.align d.2.1 d.2.2 = [piece d]) :
    g.rowLines b ws texts = [b.frame ((g.columns.zip (ws.zip texts)).map piece)] := by
  have hheight : ((g.columns.zip (ws.zip texts)).map fun d => (cellLines d.1.align d.2.1 d.2.2).length).foldl max 1 = 1 := by
    have hones : ((g.columns.zip (ws.zip texts)).map fun d => (cellLines d.1.align d.2.1 d.2.2).length) =
        List.replicate (g.columns.zip (ws.zip texts)).length 1 :=
      List.eq_replicate_iff.2 ⟨List.length_map _, fun n hn => by
        obtain ⟨d, hd, rfl⟩ := List.mem_map.1 hn
        rw [h d hd, List.length_singleton]⟩
    rw [hones]
    induction (g.columns.zip (ws.zip texts)).length with
    | zero => rfl
    | succ n ih => exact ih
  rw [rowLines_eq, hheight, List.range_one, List.map_singleton]
  congr 2
  refine List.map_congr_left fun d hd => ?_
  rw [h d hd]
  rfl

end Rows

end Grid

end Report

end SignalWiring
