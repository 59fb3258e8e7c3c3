/-
Paths.

A path has a start (here, the top, or the top written with two slashes) and parts, none of which is empty, a single dot
or holds a slash; that is part of the type. Reading a path drops empty parts and single dots and keeps `..`.
`name` is the last part; `suffix` and `stem` split it at its last dot, unless that dot is its first or last character.

Paths are compared part by part, by code points.
-/
import SignalWiring.Text.Split

namespace SignalWiring

inductive Path.Start where
  | here
  | top
  | doubleTop
  deriving DecidableEq, Repr, Inhabited

/-- text before the first part -/
def Path.Start.text : Path.Start → String
  | .here => ""
  | .top => "/"
  | .doubleTop => "//"

/-- a text that can be one part of a path -/
def Path.IsPart (p : String) : Prop := p ≠ "" ∧ p ≠ "." ∧ '/' ∉ p.toList

instance (p : String) : Decidable (Path.IsPart p) := inferInstanceAs (Decidable (_ ∧ _ ∧ _))

/-- a start and the parts after it -/
structure Path where
  start : Path.Start := .here
  parts : List String := []
  clean : ∀ p ∈ parts, Path.IsPart p := by simp
  deriving DecidableEq

namespace Path

instance : Inhabited Path := ⟨{}⟩

/-- the parts between slashes, without empty ones and single dots -/
def partsOf (s : String) : List String :=
  ((Text.fields '/' s.toList).map String.ofList).filter fun p => p ≠ "" && p ≠ "."

theorem isPart_of_mem_partsOf {s p : String} (h : p ∈ partsOf s) : IsPart p := by
  simp only [partsOf, List.mem_filter, List.mem_map, Bool.and_eq_true, decide_eq_true_eq] at h
  obtain ⟨⟨f, hf, rfl⟩, h1, h2⟩ := h
  exact ⟨h1, h2, by simpa using Text.not_mem_of_mem_fields hf⟩

/-- two slashes and no third are kept apart from one slash and from three or more -/
def startOf : List Char → Start
  | '/' :: '/' :: '/' :: _ => .top
  | '/' :: '/' :: _ => .doubleTop
  | '/' :: _ => .top
  | _ => .here

def ofString (s : String) : Path := ⟨startOf s.toList, partsOf s, fun _ => isPart_of_mem_partsOf⟩

/-- text of a path; the empty one is a dot -/
def toString (p : Path) : String :=
  match p.start, p.parts with
  | .here, [] => "."
  | s, parts => s.text ++ Text.join "/" parts

instance : ToString Path := ⟨toString⟩

/-- `q` seen from `p` -/
def join (p q : Path) : Path :=
  match q.start with
  | .here => ⟨p.start, p.parts ++ q.parts, by
      intro x hx
      rcases List.mem_append.1 hx with h | h
      · exact p.clean x h
      · exact q.clean x h⟩
  | _ => q

instance : HDiv Path String Path := ⟨fun p s => p.join (ofString s)⟩

/-- last part, empty when there is none -/
def name (p : Path) : String := p.parts.getLastD ""

def parent (p : Path) : Path := ⟨p.start, p.parts.dropLast, fun x h => p.clean x (List.dropLast_subset _ h)⟩

/-- a file name as its stem and its suffix -/
def splitName (name : String) : String × String :=
  let cs := name.toList.reverse
  let tail := cs.takeWhile (· != '.')
  match cs.dropWhile (· != '.') with
  | dot :: front =>
    if tail.isEmpty || front.isEmpty then (name, "")
    else (String.ofList front.reverse, String.ofList (dot :: tail.reverse))
  | [] => (name, "")

/-- the name from its last dot on -/
def suffix (p : Path) : String := (splitName p.name).2

/-- the name before its last dot -/
def stem (p : Path) : String := (splitName p.name).1

/-- what comparison looks at: the start, if there is one, and the parts -/
def key (p : Path) : List String :=
  match p.start with
  | .here => p.parts
  | s => s.text :: p.parts

/-- part by part; parts that come to an end come first -/
def keyLe : List String → List String → Bool
  | [], _ => true
  | _ :: _, [] => false
  | a :: as, b :: bs => a < b || (a = b && keyLe as bs)

/-- `p` comes before `q` or is equal to it -/
def le (p q : Path) : Bool := keyLe p.key q.key

/-- A single dot, a double dot or a text with a slash is no name for a file of its own. -/
def IsBareName (s : String) : Prop := s ≠ "" ∧ s ≠ "." ∧ s ≠ ".." ∧ '/' ∉ s.toList

instance (s : String) : Decidable (IsBareName s) := inferInstanceAs (Decidable (_ ∧ _ ∧ _ ∧ _))

theorem fields_eq_singleton {sep : Char} {cs : List Char} (h : sep ∉ cs) : Text.fields sep cs = [cs] := by
  induction cs with
  | nil => rfl
  | cons c rest ih =>
    simp only [List.mem_cons, not_or] at h
    simp [Text.fields, Ne.symm h.1, ih h.2]

theorem partsOf_of_isPart {s : String} (h : IsPart s) : partsOf s = [s] := by
  simp [partsOf, fields_eq_singleton h.2.2, h.1, h.2.1]

end Path

end SignalWiring
