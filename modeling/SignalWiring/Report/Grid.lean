/-
Tables with borders.

A column is as wide as its widest line and a blank on each side. When the table is too wide, the widest columns are
narrowed to the next narrower ones, again and again, and in the end all columns together. Cells are wrapped to what is
left, and a row is as high as its highest cell.
-/
import SignalWiring.Decimal.Shortest
import SignalWiring.Report.Toolkit
import SignalWiring.Text.Wrap

namespace SignalWiring.Report

/-- the characters of one line of a border: its start, its filling, what stands between columns, and its end -/
structure Border where
  start : Char
  filling : Char
  between : Char
  stop : Char

namespace Border

def top : Border := ⟨'┏', '━', '┳', '┓'⟩

def header : Border := ⟨'┃', ' ', '┃', '┃'⟩

def underHeader : Border := ⟨'┡', '━', '╇', '┩'⟩

def row : Border := ⟨'│', ' ', '│', '│'⟩

def bottom : Border := ⟨'└', '─', '┴', '┘'⟩

/-- pieces between the characters of a border -/
def frame (b : Border) (pieces : List (List Char)) : List Char :=
  b.start :: (Text.joinWith [b.between] pieces ++ [b.stop])

/-- a line with nothing in it but filling -/
def rule (b : Border) (widths : List Nat) : List Char := b.frame (widths.map fun w => List.replicate w b.filling)

end Border

namespace Grid

/-! ## Widths -/

/-- a character at which a line ends -/
def isLineEnd (c : Char) : Bool := [0x0A, 0x1C, 0x1D, 0x1E, 0x85, 0x2028, 0x2029].contains c.toNat

def widest (cs : List Char) : Nat :=
  ((Text.fields '\n' (cs.map fun c => if isLineEnd c then '\n' else c)).map Text.cells).foldl max 0

/-- the width of a column with these cells when the columns together may take `limit` -/
def columnWidth (limit : Nat) (cells : List (List Char)) : Nat :=
  if limit = 0 then 1
  else if limit < 3 then limit
  else min limit ((cells.map widest).foldl max 0 + 2)

def total : List Nat → Nat
  | [] => 0
  | w :: rest => w + total rest

/-- `amount` taken away from `shares` of the widths in equal parts, from each no more than the number beside it -/
def takeAway : Nat → Nat → List (Nat × Nat) → List Nat
  | _, _, [] => []
  | amount, shares, (w, most) :: rest =>
    if most = 0 then w :: takeAway amount shares rest
    else
      let part := min most (Decimal.roundHalfEven amount shares)
      (w - part) :: takeAway (amount - part) (shares - 1) rest

/-- `amount` taken away from the widths beside which there is a number other than zero -/
def narrow (amount : Nat) (widths : List (Nat × Nat)) : List Nat :=
  takeAway amount (widths.countP fun p => p.2 ≠ 0) widths

/-- narrow the widest widths until they fit into `limit` or are all the same; at most `rounds` times -/
def level (limit : Nat) : Nat → List Nat → List Nat
  | 0, ws => ws
  | rounds + 1, ws =>
    let excess := total ws - limit
    let most := ws.foldl max 0
    let next := (ws.filter (· ≠ most)).foldl max 0
    if excess = 0 ∨ most = next then ws
    else level limit rounds (narrow excess (ws.map fun w => (w, if w = most then min excess (most - next) else 0)))

/-- widths that fit into `limit`; every round of levelling takes something away -/
def fit (limit : Nat) (ws : List Nat) : List Nat :=
  let levelled := level limit (total ws - limit) ws
  if total levelled ≤ limit then levelled else narrow (total levelled - limit) (levelled.map fun w => (w, w))

def cellsByColumn (g : Grid) : List (List (List Char)) :=
  g.columns.zipIdx.map fun (c, i) => c.header :: g.rows.map fun r => r.getD i []

/-- the widths of the columns on a console of `width` cells -/
def widths (g : Grid) (width : Nat) : List Nat :=
  let limit := width - (g.columns.length + 1)
  fit limit (g.cellsByColumn.map (columnWidth limit))

/-! ## Drawing -/

def cellLines (align : Align) (w : Nat) (cs : List Char) : List (List Char) :=
  if w < 3 then []
  else
    (Text.wrap .ellipsis (w - 2) cs).map fun line =>
      let placed := match align with
        | .left => Text.alignLeft .ellipsis (w - 2) line
        | .center => Text.alignCenter .ellipsis (w - 2) line
      ' ' :: (placed ++ [' '])

/-- the lines of a row; shorter cells are filled up with blanks -/
def rowLines (g : Grid) (b : Border) (widths : List Nat) (cells : List (List Char)) : List (List Char) :=
  let drawn := (g.columns.zip (widths.zip cells)).map fun (c, w, cs) => (w, cellLines c.align w cs)
  let height := (drawn.map fun d => d.2.length).foldl max 1
  (List.range height).map fun i => b.frame (drawn.map fun (w, ls) => ls.getD i (List.replicate w ' '))

/-- the lines of the table on a console of `width` cells -/
def lines (g : Grid) (width : Nat) : List (List Char) :=
  let ws := g.widths width
  let whole := total ws + g.columns.length + 1
  (Text.wrap .fold whole g.title).map (Text.alignCenter .fold whole) ++
  [Border.top.rule ws] ++
  g.rowLines .header ws (g.columns.map Column.header) ++
  [Border.underHeader.rule ws] ++
  g.rows.flatMap (g.rowLines .row ws) ++
  [Border.bottom.rule ws]

theorem fit_of_le {limit : Nat} {ws : List Nat} (h : total ws ≤ limit) : fit limit ws = ws := by
  simp [fit, Nat.sub_eq_zero_of_le h, level, h]

end Grid

end SignalWiring.Report
