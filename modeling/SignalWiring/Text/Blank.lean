/-
Blanks, and what trimming them does.

`isBlank` is the Unicode notion: the separators, the line and paragraph marks, the next-line control, and the controls
from tab to carriage return and from file to unit separator. A zero-width space is not a blank.
-/

namespace SignalWiring.Text

/-- a character that trimming removes -/
def isBlank (c : Char) : Bool :=
  let n := c.toNat
  (9 ≤ n && n ≤ 13) || (28 ≤ n && n ≤ 32) || n == 0x85 || n == 0xA0 || n == 0x1680 ||
    (0x2000 ≤ n && n ≤ 0x200A) || n == 0x2028 || n == 0x2029 || n == 0x202F || n == 0x205F || n == 0x3000

/-- `cs` without the blanks at its end -/
def trimEnd (cs : List Char) : List Char :=
  (cs.reverse.dropWhile isBlank).reverse

/-- `cs` without the blanks at both ends -/
def trim (cs : List Char) : List Char :=
  trimEnd (cs.dropWhile isBlank)

/-- a text is what is left of it without the blanks at its end, and these blanks -/
theorem exists_trimEnd (cs : List Char) : ∃ tail, cs = trimEnd cs ++ tail ∧ ∀ c ∈ tail, isBlank c = true := by
  refine ⟨(cs.reverse.takeWhile isBlank).reverse, ?_, fun c hc => ?_⟩
  · rw [trimEnd, ← List.reverse_append, List.takeWhile_append_dropWhile, List.reverse_reverse]
  · exact List.all_eq_true.1 List.all_takeWhile c (List.mem_reverse.1 hc)

end SignalWiring.Text
