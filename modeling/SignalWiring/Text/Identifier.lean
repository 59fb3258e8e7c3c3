/-
Identifiers: a character of `XID_Start` or an underscore, then characters of `XID_Continue`.

Reserved words count as identifiers, and a leading `@` does not belong to one.
-/
import SignalWiring.Text.IdentifierRanges

namespace SignalWiring.Text

def isIdentifierStart (c : Char) : Bool :=
  c.isAlpha || c == '_' || (c.toNat ≥ 128 && identifierStart.has c)

/-- `c` may stand inside an identifier -/
def isIdentifierPart (c : Char) : Bool :=
  c.isAlphanum || c == '_' || (c.toNat ≥ 128 && identifierContinue.has c)

def isIdentifier (s : String) : Bool :=
  match s.toList with
  | [] => false
  | c :: rest => isIdentifierStart c && rest.all isIdentifierPart

theorem ne_empty_of_isIdentifier {s : String} (h : isIdentifier s = true) : s ≠ "" := by
  rintro rfl
  simp [isIdentifier] at h

end SignalWiring.Text
