/-
Terminal cells: how wide a character and a text are on a terminal.

Controls and combining marks take no cell, wide East Asian characters and most pictographs take two, and every other
character takes one. `cutCells` shortens a text to a number of cells; where a character of two cells straddles the cut
a blank stands for its first half.
-/
import SignalWiring.Text.WidthRanges

namespace SignalWiring.Text

def cellsOf (c : Char) : Nat :=
  let n := c.toNat
  if n < 32 || (0x7F ≤ n && n < 0xA0) then 0
  else if n < 0x300 then 1
  else if combining.has c then 0
  else if wide.has c then 2
  else 1

def cells : List Char → Nat
  | [] => 0
  | c :: rest => cellsOf c + cells rest

/-- the longest start of `cs` within `w` cells, with a blank for the first half of a character that straddles the cut -/
def cutCells : Nat → List Char → List Char
  | _, [] => []
  | w, c :: rest =>
    if cellsOf c ≤ w then c :: cutCells (w - cellsOf c) rest
    else List.replicate w ' '

/-- `cs` cut or padded with blanks to exactly `w` cells -/
def fitCells (w : Nat) (cs : List Char) : List Char :=
  if cells cs ≤ w then cs ++ List.replicate (w - cells cs) ' ' else cutCells w cs

theorem cells_append (a b : List Char) : cells (a ++ b) = cells a + cells b := by
  induction a with
  | nil => simp [cells]
  | cons c rest ih => simp [cells, ih, Nat.add_assoc]

theorem cells_replicate_blank (n : Nat) : cells (List.replicate n ' ') = n := by
  have h : cellsOf ' ' = 1 := by decide
  induction n with
  | zero => rfl
  | succ n ih => simp [List.replicate_succ, cells, h, ih, Nat.add_comm]

end SignalWiring.Text
