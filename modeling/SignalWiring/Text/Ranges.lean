/-
Sets of characters given as closed ranges of code points.

`Ranges.has` is membership. The property tables beside this module are values of `Ranges`.
-/

namespace SignalWiring.Text

/-- closed ranges of code points, ascending -/
abbrev Ranges := List (Nat × Nat)

/-- some range holds the code point of `c` -/
def Ranges.has (r : Ranges) (c : Char) : Bool :=
  r.any fun lohi => lohi.1 ≤ c.toNat && c.toNat ≤ lohi.2

theorem Ranges.has_iff {r : Ranges} {c : Char} :
    r.has c = true ↔ ∃ lohi ∈ r, lohi.1 ≤ c.toNat ∧ c.toNat ≤ lohi.2 := by
  simp [Ranges.has]

end SignalWiring.Text
