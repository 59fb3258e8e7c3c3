/-
What each character of a C# source is: a blank, or part of a comment, of a literal, of a preprocessor line, or of code.

`mask` goes over the source once, one character at a time, with a stack of open constructs. Literals are regular,
verbatim and raw strings and characters; a string that interpolates may hold expressions, which may hold strings again,
and all of that is one literal. A comment ends where its line ends, a preprocessor line only at a line feed.
-/
import SignalWiring.Text.Blank

namespace SignalWiring.CSharp

inductive CharClass where
  | blank
  | comment
  | literal
  | directive
  | code
  deriving DecidableEq, Repr, Inhabited

/-- a construct that is open -/
inductive Mode where
  /-- a comment to the end of its line -/
  | lineComment
  /-- a comment to its end mark; `star` after an asterisk -/
  | blockComment (star : Bool)
  /-- a preprocessor line -/
  | directive
  | character
  /-- a string with escapes; `holes` when it interpolates -/
  | regular (holes : Bool)
  /-- a string without escapes; `holes` when it interpolates -/
  | verbatim (holes : Bool)
  /-- the opening quotes of a raw string -/
  | opening (quotes dollars : Nat)
  /-- a raw string, with the quotes and the braces just before the next character -/
  | raw (quotes dollars seenQuotes seenBraces : Nat)
  /-- an expression in a string; so many braces close it -/
  | hole (depth closing : Nat)
  /-- the format of an expression in a string -/
  | format (closing : Nat)
  deriving DecidableEq, Repr

/-- open constructs, innermost first, and what has just been seen of the start of a string -/
structure MaskState where
  stack : List Mode := []
  /-- so many characters belong to what is open without being looked at -/
  skip : Nat := 0
  dollars : Nat := 0
  atSign : Bool := false
  deriving DecidableEq, Repr

/-- white space between the tokens of a source -/
def isSpace (c : Char) : Bool :=
  (Text.isBlank c && !(28 ≤ c.toNat && c.toNat ≤ 31)) || c.toNat == 0xFEFF

/-- the class of the characters inside a stack of open constructs -/
def classIn (stack : List Mode) : Option CharClass :=
  stack.getLast?.map fun
    | .lineComment | .blockComment _ => .comment
    | .directive => .directive
    | _ => .literal

namespace MaskState

/-- open a construct -/
def push (s : MaskState) (m : Mode) (skip : Nat) : MaskState := { stack := m :: s.stack, skip := skip }

/-- close the innermost construct -/
def pop (s : MaskState) (skip : Nat) : MaskState := { stack := s.stack.tail, skip := skip }

/-- exchange the innermost construct -/
def become (s : MaskState) (m : Mode) : MaskState := { stack := m :: s.stack.tail }

/-- open the string whose first quote has been met -/
def openString (s : MaskState) (next : List Char) : MaskState :=
  if s.atSign then s.push (.verbatim (0 < s.dollars)) 0
  else if ['"', '"'].isPrefixOf next then s.push (.opening 1 s.dollars) 0
  else s.push (.regular (0 < s.dollars)) 0

/-- a character of code, outside of strings or in an expression inside one -/
def code (s : MaskState) (c : Char) (next : List Char) : MaskState :=
  match c with
  | '/' =>
    match next with
    | '/' :: _ => s.push .lineComment 1
    | '*' :: _ => s.push (.blockComment false) 1
    | _ => { stack := s.stack }
  | '\'' => s.push .character 0
  | '"' => s.openString next
  | '$' => { s with dollars := s.dollars + 1 }
  | '@' => { s with atSign := true }
  | _ => { stack := s.stack }

/-- a character of an expression in a string, at a depth of brackets -/
def inHole (s : MaskState) (depth closing : Nat) (c : Char) (next : List Char) : MaskState :=
  if c = '(' || c = '[' || c = '{' then s.become (.hole (depth + 1) closing)
  else if c = ')' || c = ']' then s.become (.hole (depth - 1) closing)
  else if c = '}' then if depth = 0 then s.pop (closing - 1) else s.become (.hole (depth - 1) closing)
  else if c = ':' && depth = 0 then
    if next.head? = some ':' then { stack := s.stack, skip := 1 } else s.become (.format closing)
  else s.code c next

/-- a brace in a string that interpolates: two stand for one, a single one opens an expression -/
def brace (s : MaskState) (next : List Char) : MaskState :=
  if next.head? = some '{' then { stack := s.stack, skip := 1 } else s.push (.hole 0 1) 0

/-- the state after a character that is looked at -/
def look (s : MaskState) (c : Char) (next : List Char) : MaskState :=
  match s.stack with
  | [] => if c = '#' then s.push .directive 0 else s.code c next
  | .hole depth closing :: _ => s.inHole depth closing c next
  | .lineComment :: below =>
    if c = '\n' then { stack := below.dropWhile (· = .directive) } else if c = '\r' then s.pop 0 else s
  | .blockComment star :: _ => if c = '/' && star then s.pop 0 else s.become (.blockComment (c = '*'))
  | .directive :: _ =>
    if c = '\n' then s.pop 0
    else if c = '/' && next.head? = some '*' then s.push (.blockComment false) 1
    else if c = '/' && next.head? = some '/' then s.push .lineComment 1
    else s
  | .character :: _ =>
    if c = '\\' then { stack := s.stack, skip := 1 } else if c = '\'' then s.pop 0 else s
  | .regular holes :: _ =>
    if c = '\\' then { stack := s.stack, skip := 1 }
    else if c = '"' then s.pop 0
    else if c = '{' && holes then s.brace next
    else s
  | .verbatim holes :: _ =>
    if c = '"' then if next.head? = some '"' then { stack := s.stack, skip := 1 } else s.pop 0
    else if c = '{' && holes then s.brace next
    else s
  | .opening quotes dollars :: _ =>
    if c = '"' then s.become (.opening (quotes + 1) dollars)
    else if c = '{' && 0 < dollars then
      if dollars ≤ 1 && next.head? ≠ some '{' then (s.become (.raw quotes dollars 0 0)).push (.hole 0 dollars) 0
      else s.become (.raw quotes dollars 0 1)
    else s.become (.raw quotes dollars 0 0)
  | .raw quotes dollars seenQuotes seenBraces :: _ =>
    if c = '"' then
      if quotes ≤ seenQuotes + 1 then s.pop 0 else s.become (.raw quotes dollars (seenQuotes + 1) 0)
    else if c = '{' && 0 < dollars then
      if dollars ≤ seenBraces + 1 && next.head? ≠ some '{' then
        (s.become (.raw quotes dollars 0 0)).push (.hole 0 dollars) 0
      else s.become (.raw quotes dollars 0 (seenBraces + 1))
    else s.become (.raw quotes dollars 0 0)
  | .format closing :: _ => if c = '}' then s.pop (closing - 1) else s

/-- the state after a character, and what the character is -/
def step (s : MaskState) (c : Char) (next : List Char) : MaskState × CharClass :=
  if 0 < s.skip then ({ s with skip := s.skip - 1 }, (classIn s.stack).getD .code)
  else
    let after := s.look c next
    let outside : CharClass := if isSpace c then .blank else .code
    match s.stack with
    | [] => (after, (classIn after.stack).getD outside)
    | _ =>
      -- the end of a line belongs to no comment and no preprocessor line
      if after.stack.isEmpty && (c = '\n' || c = '\r') then (after, outside)
      else (after, (classIn s.stack).getD outside)

end MaskState

/-- every character of a source with its class -/
def mask : MaskState → List Char → List (Char × CharClass)
  | _, [] => []
  | s, c :: rest => (c, (s.step c rest).2) :: mask (s.step c rest).1 rest

end SignalWiring.CSharp
