/-
Lexemes of a C# source, with their places.

A lexeme is a word (an identifier, a keyword or a number), a literal, a preprocessor line, or a symbol. Blanks and
comments go with the lexeme after them, and so do preprocessor lines that have no part in the structure; so the text
between two lexemes is never lost. Bytes and columns are those of UTF-8.
-/
import SignalWiring.CSharp.Mask
import SignalWiring.Text.Identifier
import SignalWiring.Text.Utf8

namespace SignalWiring.CSharp

/-- bytes before a character, line feeds before it, and bytes since the last of them -/
structure Position where
  byte : Nat := 0
  row : Nat := 0
  column : Nat := 0
  deriving DecidableEq, Repr, Inhabited

def Position.after (p : Position) (c : Char) : Position :=
  let n := Text.Utf8.width c
  if c = '\n' then ⟨p.byte + n, p.row + 1, 0⟩ else ⟨p.byte + n, p.row, p.column + n⟩

/-- a character with its class and its position -/
structure Mark where
  char : Char
  cls : CharClass
  pos : Position
  deriving DecidableEq, Repr, Inhabited

/-- the characters of a mask with their positions -/
def marks : Position → List (Char × CharClass) → List Mark
  | _, [] => []
  | p, (c, k) :: rest => ⟨c, k, p⟩ :: marks (p.after c) rest

/-- a character of words; a backslash starts an escaped one -/
def isWordChar (c : Char) : Bool := Text.isIdentifierPart c || c = '\\'

/-- `b` goes on the symbol that ends with `a` -/
def joinsSymbol (a b : Char) : Bool :=
  (a = ':' && b = ':') || (a = '=' && b = '>') || (b = '=' && "=!<>+-*/%&|^?".toList.contains a)

/-- `b` belongs to the same stretch as `a`, which is just before it -/
def Mark.joins (a b : Mark) : Bool :=
  match a.cls, b.cls with
  | .code, .code =>
    (isWordChar a.char && isWordChar b.char) ||
      (a.char = '@' && (Text.isIdentifierStart b.char || b.char = '\\')) || joinsSymbol a.char b.char
  | x, y => x = y

inductive LexemeKind where
  | word
  | literal
  | directive
  | symbol
  deriving DecidableEq, Repr, Inhabited

/-- a lexeme, what comes between it and the one before, and its position -/
structure Lexeme where
  kind : LexemeKind
  lead : List Char
  text : String
  pos : Position
  deriving DecidableEq, Repr, Inhabited

def directiveWord (line : List Char) : String :=
  String.ofList (((line.drop 1).dropWhile fun c => c = ' ' || c = '\t').takeWhile Char.isAlpha)

/-- preprocessor lines that divide a source into branches -/
def branchWords : List String := ["if", "elif", "else", "endif"]

/-- a stretch of marks as a lexeme; `none` for what only goes with the next one -/
def lexeme? (lead : List Char) (stretch : List Mark) : Option Lexeme :=
  match stretch with
  | [] => none
  | m :: _ =>
    let chars := stretch.map Mark.char
    let made (k : LexemeKind) : Option Lexeme := some ⟨k, lead, String.ofList chars, m.pos⟩
    match m.cls with
    | .blank | .comment => none
    | .literal => made .literal
    | .directive => if branchWords.contains (directiveWord chars) then made .directive else none
    | .code => made (if chars.any isWordChar then .word else .symbol)

/-- the lexemes of stretches; `lead` has been met since the last one -/
def lexemesFrom (lead : List Char) : List (List Mark) → List Lexeme
  | [] => []
  | stretch :: rest =>
    match lexeme? lead stretch with
    | some l => l :: lexemesFrom [] rest
    | none => lexemesFrom (lead ++ stretch.map Mark.char) rest

def lexemes (source : String) : List Lexeme :=
  lexemesFrom [] ((marks {} (mask {} source.toList)).splitBy Mark.joins)

namespace Lexeme

def is (l : Lexeme) (s : String) : Bool := (l.kind = .symbol || l.kind = .word) && l.text = s

def isOneOf (l : Lexeme) (words : List String) : Bool := l.kind = .word && words.contains l.text

def isWord (l : Lexeme) : Bool := l.kind = .word

/-- the word of a preprocessor line, empty for any other lexeme -/
def branchWord (l : Lexeme) : String := if l.kind = .directive then directiveWord l.text.toList else ""

/-- the source from the first of some lexemes to the last -/
def slice : List Lexeme → List Char
  | [] => []
  | l :: rest => l.text.toList ++ rest.flatMap fun x => x.lead ++ x.text.toList

end Lexeme

end SignalWiring.CSharp
