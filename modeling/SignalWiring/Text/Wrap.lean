/-
Wrapping text to a number of terminal cells.

A word is a stretch without blanks together with the blanks after it, the first one also with those before it. Words are
placed one after the other; a word goes to a new line when what is left of the current one is too short for it, its
trailing blanks aside. A word that is longer than any line starts a new line too: `.fold` chops it into lines, `.ellipsis`
leaves it whole, and `shorten` cuts it afterwards and says so by a trailing `…`.
-/
import SignalWiring.Text.Blank
import SignalWiring.Text.Split
import SignalWiring.Text.Width

namespace SignalWiring.Text

/-- what happens to a word that is longer than a line -/
inductive Overflow where
  /-- it goes on in the next line -/
  | fold
  /-- it is cut, and `…` stands for the rest -/
  | ellipsis
  deriving DecidableEq, Repr, Inhabited

/-- tabs become blanks up to the next multiple of eight cells; `p` cells stand before the text -/
def expandTabs : Nat → List Char → List Char
  | _, [] => []
  | p, c :: rest =>
    if c = '\t' then List.replicate (8 - p % 8) ' ' ++ expandTabs (p + (8 - p % 8)) rest
    else c :: expandTabs (p + cellsOf c) rest

/-- the words of a text with the blanks around them -/
def words (cs : List Char) : List (List Char) :=
  match cs.splitBy fun a b => !isBlank a || isBlank b with
  | lead :: word :: rest => if lead.all isBlank then (lead ++ word) :: rest else lead :: word :: rest
  | groups => groups

/-- `cs` after `line`, with a new line before each character that has no room -/
def chopAfter (w : Nat) (line : List Char) : List Char → List (List Char)
  | [] => [line]
  | c :: rest =>
    if line ≠ [] ∧ w < cells line + cellsOf c then line :: chopAfter w [c] rest else chopAfter w (line ++ [c]) rest

/-- `cs` in pieces of at most `w` cells -/
def chop (w : Nat) (cs : List Char) : List (List Char) := chopAfter w [] cs

/-- the lines of words when `line` is on the first one already -/
def breakAfter (o : Overflow) (w : Nat) (line : List Char) : List (List Char) → List (List Char)
  | [] => [line]
  | word :: rest =>
    let length := cells (trimEnd word)
    if cells line + length ≤ w then breakAfter o w (line ++ word) rest
    else
      let closed := if line = [] then [] else [line]
      if w < length ∧ o = .fold then
        let pieces := chop w word
        closed ++ pieces.dropLast ++ breakAfter o w (pieces.getLastD []) rest
      else closed ++ breakAfter o w word rest

/-- `cs` without the trailing blanks that make it longer than `w` -/
def dropOverhang (w : Nat) (cs : List Char) : List Char := cs.take (max w (trimEnd cs).length)

def wrap (o : Overflow) (w : Nat) (cs : List Char) : List (List Char) :=
  (fields '\n' cs).flatMap fun line => (breakAfter o w [] (words (expandTabs 0 line))).map (dropOverhang w)

/-- a line cut to `w` cells -/
def shorten (o : Overflow) (w : Nat) (cs : List Char) : List Char :=
  if cells cs ≤ w then cs
  else
    match o with
    | .fold => cutCells w cs
    | .ellipsis => cutCells (w - 1) cs ++ ['…']

/-- a line padded to `w` cells on the right -/
def alignLeft (o : Overflow) (w : Nat) (cs : List Char) : List Char :=
  let line := shorten o w cs
  line ++ List.replicate (w - cells line) ' '

/-- a line padded to `w` cells on both sides, on the right by one more if the free cells are odd -/
def alignCenter (o : Overflow) (w : Nat) (cs : List Char) : List Char :=
  let line := shorten o w (trimEnd cs)
  let free := w - cells line
  List.replicate (free / 2) ' ' ++ line ++ List.replicate (free - free / 2) ' '

theorem shorten_of_le {o : Overflow} {w : Nat} {cs : List Char} (h : cells cs ≤ w) : shorten o w cs = cs := by
  simp [shorten, h]

end SignalWiring.Text
