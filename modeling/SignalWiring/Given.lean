/-
Lists of values that may not be there.
-/

namespace SignalWiring

/-- the values before the first one that is not there, and whether there is such a one -/
def untilAbsent {α : Type} : List (Option α) → List α × Bool
  | [] => ([], false)
  | none :: _ => ([], true)
  | some a :: rest =>
    let (found, absent) := untilAbsent rest
    (a :: found, absent)

end SignalWiring
