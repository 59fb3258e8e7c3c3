/-
Whole numbers that are too long to be read.

A document may be given up because of a whole number in base ten. The readers hand the number of its digits on unchanged,
from the one that counts them (`Toml.whole`) to `Toml.parse`, so it is always above the limit (`Toml.exceeds_parse`).
-/
import SignalWiring.Toml.Document

namespace SignalWiring.Toml

/-- what is given up because of a number has one with too many digits -/
def Exceeds {α : Type} (x : Except Flaw α) : Prop :=
  ∀ digits, x = .error (.overlong digits) → Decimal.maxDigits < digits

section Steps

variable {α β : Type} {x : Except Flaw α} {f : α → Except Flaw β}

theorem exceeds_ok (a : α) : Exceeds (.ok a : Except Flaw α) := fun _ h => nomatch h

theorem exceeds_malformed : Exceeds (.error .malformed : Except Flaw α) := fun _ h => nomatch h

theorem exceeds_required (found : Option α) : Exceeds (required found) := by
  cases found with
  | none => exact exceeds_malformed
  | some a => exact exceeds_ok a

theorem Exceeds.bind (hx : Exceeds x) (hf : ∀ a, Exceeds (f a)) : Exceeds (x >>= f) := by
  intro digits h
  cases x with
  | ok a => exact hf a digits h
  | error flaw =>
    obtain rfl : flaw = .overlong digits := Except.error.inj h
    exact hx digits rfl

theorem Exceeds.map (hx : Exceeds x) (g : α → β) : Exceeds (x.map g) := by
  intro digits h
  cases x with
  | ok a => cases h
  | error flaw =>
    obtain rfl : flaw = .overlong digits := Except.error.inj h
    exact hx digits rfl

end Steps

theorem exceeds_whole (negative : Bool) (ds : List Char) : Exceeds (whole negative ds) := by
  unfold whole
  split
  · rename_i hlong
    intro digits h
    obtain rfl : ds.length = digits := Flaw.overlong.inj (Except.error.inj h)
    exact hlong
  · exact exceeds_ok _

theorem exceeds_decimal (cs : List Char) : Exceeds (decimal cs) := by
  unfold decimal
  refine (exceeds_required _).bind fun p => ?_
  simp only
  split
  · exact (exceeds_whole _ _).bind fun _ => exceeds_ok _
  · exact exceeds_ok _

theorem exceeds_number (cs : List Char) : Exceeds (number cs) := by
  unfold number
  simp only
  split
  · exact exceeds_ok _
  · exact exceeds_decimal cs

theorem exceeds_scalar (cs : List Char) : Exceeds (scalar cs) := by
  unfold scalar
  split
  · exact exceeds_required _
  · exact exceeds_required _
  · split
    · exact exceeds_ok _
    · split
      · exact exceeds_required _
      · split
        · exact exceeds_ok _
        · split
          · exact exceeds_required _
          · exact exceeds_number cs

/-- the three readers of values call one another with one step less -/
theorem exceeds_values (n : Nat) : (∀ cs, Exceeds (value n cs)) ∧ (∀ cs, Exceeds (items n cs)) ∧
    ∀ closed t cs, Exceeds (entries n closed t cs) := by
  induction n with
  | zero =>
    refine ⟨fun cs => ?_, fun cs => ?_, fun closed t cs => ?_⟩
    · rw [value]
      exact exceeds_malformed
    · rw [items]
      exact exceeds_malformed
    · rw [entries]
      exact exceeds_malformed
  | succ n ih =>
    obtain ⟨hvalue, hitems, hentries⟩ := ih
    refine ⟨fun cs => ?_, fun cs => ?_, fun closed t cs => ?_⟩
    · unfold value
      split
      · exact (exceeds_required _).bind fun rest => (hitems rest).bind fun p => exceeds_ok _
      · split
        · exact exceeds_ok _
        · exact (hentries _ _ _).map _
      · exact exceeds_scalar _
    · unfold items
      split
      · exact exceeds_ok _
      · refine (hvalue _).bind fun p => (exceeds_required _).bind fun rest => ?_
        split
        · exact exceeds_ok _
        · exact (exceeds_required _).bind fun after => (hitems after).bind fun p => exceeds_ok _
        · exact exceeds_malformed
    · unfold entries
      split
      · refine (hvalue _).bind fun p => (exceeds_required _).bind fun u => ?_
        split
        · exact exceeds_ok _
        · exact hentries _ _ _
        · exact exceeds_malformed
      · exact exceeds_malformed

theorem exceeds_statement (d : Draft) (cs : List Char) : Exceeds (statement d cs) := by
  unfold statement
  split
  · split
    · exact exceeds_required _
    · exact exceeds_malformed
  · split
    · exact exceeds_required _
    · exact exceeds_malformed
  · split
    · exact ((exceeds_values _).1 _).bind fun p => (exceeds_required _).bind fun d => exceeds_ok _
    · exact exceeds_malformed

theorem exceeds_lines (n : Nat) (d : Draft) (cs : List Char) : Exceeds (lines n d cs) := by
  induction n generalizing d cs with
  | zero =>
    rw [lines]
    exact exceeds_malformed
  | succ n ih =>
    unfold lines
    split
    · exact exceeds_ok d
    · exact ih d _
    · exact (exceeds_required _).bind fun rest => ih d rest
    · exact (exceeds_statement d _).bind fun p => (exceeds_required _).bind fun rest => ih p.1 rest

/-- **Long numbers.** A document that is given up because of a whole number has one above the limit. -/
theorem exceeds_parse (text : String) : Exceeds (parse text) := (exceeds_lines _ _ _).map _

end SignalWiring.Toml
