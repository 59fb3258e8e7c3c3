/-
Pieces: lexemes grouped by their brackets.

Round, square and curly brackets make groups, and so do the preprocessor lines from `#if` to `#endif`, whose branches are
kept one after the other. A closing bracket that closes nothing stays a lexeme; a group that is never closed reaches to
the end. Grouping loses no lexeme but the lines between branches.
-/
import SignalWiring.CSharp.Lexeme

namespace SignalWiring.CSharp

/-- what groups are made of -/
inductive Bracket where
  | round
  | square
  | curly
  | branches
  deriving DecidableEq, Repr, Inhabited

/-- a lexeme or a bracketed group -/
inductive Piece where
  | lexeme (l : Lexeme)
  | group (bracket : Bracket) (opening : Lexeme) (inside : List Piece) (closing : Option Lexeme)
  deriving Inhabited

namespace Piece

def first : Piece → Lexeme
  | .lexeme l => l
  | .group _ opening _ _ => opening

def is (p : Piece) (s : String) : Bool :=
  match p with
  | .lexeme l => l.is s
  | .group .. => false

def isGroup (p : Piece) (b : Bracket) : Bool :=
  match p with
  | .group bracket _ _ _ => bracket = b
  | .lexeme _ => false

def word? (p : Piece) : Option Lexeme :=
  match p with
  | .lexeme l => if l.isWord then some l else none
  | .group .. => none

def isOneOf (p : Piece) (words : List String) : Bool :=
  match p with
  | .lexeme l => l.isOneOf words
  | .group .. => false

mutual

def lexemes : Piece → List Lexeme
  | .lexeme l => [l]
  | .group _ opening inside closing => opening :: (lexemesAll inside ++ closing.toList)

def lexemesAll : List Piece → List Lexeme
  | [] => []
  | p :: ps => p.lexemes ++ lexemesAll ps

end

/-- the source from the first piece to the last -/
def slice (ps : List Piece) : List Char := Lexeme.slice (lexemesAll ps)

end Piece

/-! ## Grouping -/

/-- a group that is open, with its pieces in reverse -/
structure Frame where
  bracket : Bracket
  opening : Lexeme
  pieces : List Piece

/-- the open groups, innermost first, and the pieces outside of all of them in reverse -/
structure Grouping where
  frames : List Frame := []
  outer : List Piece := []

namespace Grouping

def add (g : Grouping) (p : Piece) : Grouping :=
  match g.frames with
  | [] => { g with outer := p :: g.outer }
  | f :: below => { g with frames := { f with pieces := p :: f.pieces } :: below }

/-- open a group -/
def begin (g : Grouping) (b : Bracket) (l : Lexeme) : Grouping := { g with frames := ⟨b, l, []⟩ :: g.frames }

def close (g : Grouping) (closing : Option Lexeme) : Grouping :=
  match g.frames with
  | [] => g
  | f :: below =>
    ({ g with frames := below } : Grouping).add (.group f.bracket f.opening f.pieces.reverse closing)

/-- close the innermost group if it is in brackets of a kind; otherwise the lexeme stands alone -/
def finish (g : Grouping) (b : Bracket) (l : Lexeme) : Grouping :=
  match g.frames with
  | f :: _ => if f.bracket = b then g.close (some l) else g.add (.lexeme l)
  | [] => g.add (.lexeme l)

def take (g : Grouping) (l : Lexeme) : Grouping :=
  match l.branchWord with
  | "if" => g.begin .branches l
  | "endif" => g.finish .branches l
  | "elif" | "else" => g
  | _ =>
    if l.is "(" then g.begin .round l
    else if l.is "[" then g.begin .square l
    else if l.is "\x7b" then g.begin .curly l
    else if l.is ")" then g.finish .round l
    else if l.is "]" then g.finish .square l
    else if l.is "\x7d" then g.finish .curly l
    else g.add (.lexeme l)

/-- all pieces, with the open groups reaching to the end -/
def pieces (g : Grouping) : List Piece :=
  (g.frames.foldl (fun acc _ => acc.close none) g).outer.reverse

end Grouping

def group (ls : List Lexeme) : List Piece := (ls.foldl Grouping.take {}).pieces

end SignalWiring.CSharp
