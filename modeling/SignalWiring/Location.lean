/-
Declaration positions inside a source artifact.

Lines count from one and columns from zero, and both are part of the type. A position in a syntax tree counts both from
zero.
-/
import SignalWiring.Fault

namespace SignalWiring

/-- where a declaration starts -/
@[ext]
structure Location where
  file : Path
  line : Nat
  column : Nat
  line_pos : 0 < line

instance : DecidableEq Location := fun _ _ => decidable_of_iff _ Location.ext_iff.symm

namespace Location

/-- a location from numbers that may be out of range -/
def make (file : Option Path) (line column : Int) : Except Fault Location :=
  match file with
  | none => .error (.absent "file must not be None")
  | some f =>
    if h : line ≤ 0 then .error (.invalid (.lineNotPositive line))
    else if column < 0 then .error (.invalid (.columnNegative column))
    else .ok ⟨f, line.toNat, column.toNat, Int.lt_toNat.2 (Int.not_le.1 h)⟩

/-- a location from a row and a column that count from zero -/
def ofPoint (file : Option Path) (row column : Int) : Except Fault Location := make file (row + 1) column

/-- `file:line:column` -/
def text (l : Location) : String := s!"{l.file.toString}:{l.line}:{l.column}"

/-- A point with no negative number has a location, one line further down. -/
theorem ofPoint_natCast (f : Path) (row column : Nat) :
    ofPoint (some f) row column = .ok ⟨f, row + 1, column, by omega⟩ := by
  have h1 : ¬((row : Int) + 1 ≤ 0) := by omega
  have h2 : ¬((column : Int) < 0) := by omega
  have h3 : ((row : Int) + 1).toNat = row + 1 := by omega
  simp [ofPoint, make, h1, h2, h3]

end Location

end SignalWiring
