/-
Scalars of TOML: blanks and comments, strings, keys, numbers, dates and times.

Every reader takes the text that is left and gives a value with what is left after it, or `none` where the text is not
what it should be. Whole numbers in base ten are read only up to `Decimal.maxDigits` digits; in the other bases they may be
longer. A reader that may meet one that is too long is a `Scan`, and says which of the two stopped it.
-/
import SignalWiring.Setting

namespace SignalWiring.Toml

/-- reads a value from the start of a text -/
abbrev Reader (α : Type) := List Char → Option (α × List Char)

/-- why a text is not read -/
inductive Flaw where
  /-- it is not what it should be -/
  | malformed
  /-- it has a whole number in base ten with so many digits, which are too many -/
  | overlong (digits : Nat)
  deriving DecidableEq, Repr, Inhabited

/-- reads a value from the start of a text, or says why not -/
abbrev Scan (α : Type) := List Char → Except Flaw (α × List Char)

def required {α : Type} (found : Option α) : Except Flaw α := found.elim (.error .malformed) .ok

/-! ## Blanks and comments -/

/-- a control character that may stand nowhere; tabs and line ends have their own rules -/
def isControl (c : Char) : Bool := (c.toNat < 32 && c != '\t') || c.toNat == 127

def isSpace (c : Char) : Bool := c == ' ' || c == '\t'

/-- the text after blanks -/
def skipSpaces (cs : List Char) : List Char := cs.dropWhile isSpace

/-- the text after blanks, line ends and comments, from inside a comment or not -/
def skipLines : (comment : Bool) → List Char → Option (List Char)
  | _, [] => some []
  | true, c :: rest =>
    if c = '\n' then skipLines false rest else if isControl c then none else skipLines true rest
  | false, c :: rest =>
    if c = '#' then skipLines true rest
    else if isSpace c || c == '\n' then skipLines false rest
    else some (c :: rest)

/-- the text after the line that ends here, if nothing but blanks and a comment is left of it -/
def endLine : (comment : Bool) → List Char → Option (List Char)
  | _, [] => some []
  | true, c :: rest => if c = '\n' then some rest else if isControl c then none else endLine true rest
  | false, c :: rest =>
    if c = '\n' then some rest
    else if c = '#' then endLine true rest
    else if isSpace c then endLine false rest
    else none

/-! ## Strings -/

def hexValue? (c : Char) : Option Nat :=
  if '0' ≤ c && c ≤ '9' then some (c.toNat - 48)
  else if 'a' ≤ c && c ≤ 'f' then some (c.toNat - 87)
  else if 'A' ≤ c && c ≤ 'F' then some (c.toNat - 55)
  else none

/-- what a backslash and a letter stand for -/
def escaped? (c : Char) : Option Char :=
  match c with
  | 'b' => some '\x08'
  | 't' => some '\t'
  | 'n' => some '\n'
  | 'f' => some '\x0c'
  | 'r' => some '\r'
  | '"' => some '"'
  | '\\' => some '\\'
  | _ => none

/-- where a reader of a string is -/
inductive Inside where
  | text
  /-- after a backslash -/
  | backslash
  /-- inside a code point, with so many digits to come -/
  | codePoint (left value : Nat)
  /-- after a backslash and a blank: only blanks may come before the line end -/
  | lineEnd
  /-- after a backslash and a line end: blanks and line ends do not count -/
  | gap
  deriving DecidableEq, Repr, Inhabited

/-- `c` before what a reader gives -/
def before (c : Char) (r : Option (List Char × List Char)) : Option (List Char × List Char) :=
  r.map fun p => (c :: p.1, p.2)

/-- one or two quotes right after the three that end a string belong to it -/
def extraQuotes (q : Char) : List Char → List Char × List Char
  | a :: b :: rest => if a = q then (if b = q then ([q, q], rest) else ([q], b :: rest)) else ([], a :: b :: rest)
  | [a] => if a = q then ([q], []) else ([], [a])
  | [] => ([], [])

/-- the string after its opening double quote, or after three of them if it is one of several lines -/
def basic (lines : Bool) : Inside → Reader (List Char)
  | _, [] => none
  | .backslash, c :: rest =>
    if c = 'u' then basic lines (.codePoint 4 0) rest
    else if c = 'U' then basic lines (.codePoint 8 0) rest
    else if lines && isSpace c then basic lines .lineEnd rest
    else if lines && c == '\n' then basic lines .gap rest
    else
      match escaped? c with
      | some d => before d (basic lines .text rest)
      | none => none
  | .codePoint left value, c :: rest =>
    match hexValue? c with
    | none => none
    | some d =>
      let n := value * 16 + d
      if 1 < left then basic lines (.codePoint (left - 1) n) rest
      else if n < 0xD800 || (0xE000 ≤ n && n < 0x110000) then before (Char.ofNat n) (basic lines .text rest)
      else none
  | .lineEnd, c :: rest =>
    if isSpace c then basic lines .lineEnd rest else if c = '\n' then basic lines .gap rest else none
  | inside, c :: rest =>
    if inside = .gap && (isSpace c || c == '\n') then basic lines .gap rest
    else if c = '\\' then basic lines .backslash rest
    else if c = '"' then
      if lines then
        match rest with
        | '"' :: '"' :: after => some (extraQuotes '"' after)
        | _ => before c (basic lines .text rest)
      else some ([], rest)
    else if isControl c && !(lines && c == '\n') then none
    else before c (basic lines .text rest)

/-- the literal string after its opening quote, or after three of them if it is one of several lines -/
def literal (lines : Bool) : Reader (List Char)
  | [] => none
  | c :: rest =>
    if c = '\'' then
      if lines then
        match rest with
        | '\'' :: '\'' :: after => some (extraQuotes '\'' after)
        | _ => before c (literal lines rest)
      else some ([], rest)
    else if isControl c && !(lines && c == '\n') then none
    else before c (literal lines rest)

/-- the text after a line end right at its start -/
def skipLineEnd : List Char → List Char
  | '\n' :: rest => rest
  | cs => cs

/-- a string in quotes of either kind -/
def quoted : Reader String
  | '"' :: '"' :: '"' :: rest => (basic true .text (skipLineEnd rest)).map fun p => (String.ofList p.1, p.2)
  | '"' :: rest => (basic false .text rest).map fun p => (String.ofList p.1, p.2)
  | '\'' :: '\'' :: '\'' :: rest => (literal true (skipLineEnd rest)).map fun p => (String.ofList p.1, p.2)
  | '\'' :: rest => (literal false rest).map fun p => (String.ofList p.1, p.2)
  | _ => none

/-! ## Keys -/

/-- a character of a key without quotes -/
def isBare (c : Char) : Bool := c.isAlphanum || c == '-' || c == '_'

def keyPart : Reader String
  | '"' :: rest => (basic false .text rest).map fun p => (String.ofList p.1, p.2)
  | '\'' :: rest => (literal false rest).map fun p => (String.ofList p.1, p.2)
  | cs =>
    match cs.takeWhile isBare with
    | [] => none
    | part => some (String.ofList part, cs.dropWhile isBare)

/-- a key with at most so many parts, and the blanks after it -/
def keyParts : Nat → Reader (List String)
  | 0, _ => none
  | n + 1, cs => do
    let (part, cs) ← keyPart cs
    match skipSpaces cs with
    | '.' :: rest =>
      let (parts, cs) ← keyParts n (skipSpaces rest)
      return (part :: parts, cs)
    | cs => return ([part], cs)

/-- a key: parts with dots between them -/
def key (cs : List Char) : Option (List String × List Char) := keyParts (cs.length + 1) cs

/-! ## Numbers -/

/-- the digits that follow a digit; one underscore may stand before each -/
def moreDigits (isDigit : Char → Bool) : List Char → List Char × List Char
  | '_' :: c :: rest =>
    if isDigit c then
      let (ds, after) := moreDigits isDigit rest
      (c :: ds, after)
    else ([], '_' :: c :: rest)
  | c :: rest =>
    if isDigit c then
      let (ds, after) := moreDigits isDigit rest
      (c :: ds, after)
    else ([], c :: rest)
  | [] => ([], [])

def digits (isDigit : Char → Bool) : Reader (List Char)
  | c :: rest =>
    if isDigit c then
      let (ds, after) := moreDigits isDigit rest
      some (c :: ds, after)
    else none
  | [] => none

def digitsValue (base : Nat) (ds : List Char) : Nat := ds.foldl (fun n c => n * base + (hexValue? c).getD 0) 0

def sign : List Char → Bool × List Char
  | '-' :: rest => (true, rest)
  | '+' :: rest => (false, rest)
  | cs => (false, cs)

/-- digits of a whole number: a zero alone, or no zero at their start -/
def wholeDigits : Reader (List Char)
  | '0' :: rest => some (['0'], rest)
  | cs => digits Char.isDigit cs

/-- the digits after a point, if there are any -/
def fraction (cs : List Char) : Option (List Char) × List Char :=
  match cs with
  | '.' :: rest =>
    match digits Char.isDigit rest with
    | some (ds, after) => (some ds, after)
    | none => (none, cs)
  | _ => (none, cs)

def exponent (cs : List Char) : Option Int × List Char :=
  match cs with
  | c :: rest =>
    if c = 'e' ∨ c = 'E' then
      let (negative, rest) := sign rest
      match digits Char.isDigit rest with
      | some (ds, after) =>
        let n : Int := digitsValue 10 ds
        (some (if negative then -n else n), after)
      | none => (none, cs)
    else (none, cs)
  | [] => (none, cs)

/-- a whole number of these digits -/
def whole (negative : Bool) (ds : List Char) : Except Flaw Setting :=
  if Decimal.maxDigits < ds.length then .error (.overlong ds.length)
  else
    let n : Int := digitsValue 10 ds
    .ok (.whole (if negative then -n else n))

/-- a number in base ten; a fraction or an exponent makes it a real one -/
def decimal : Scan Setting := fun cs => do
  let (negative, cs) := sign cs
  let (ws, cs) ← required (wholeDigits cs)
  let (fs, cs) := fraction cs
  let (e, cs) := exponent cs
  if fs.isNone && e.isNone then
    return (← whole negative ws, cs)
  else
    let ds := fs.getD []
    return (.real (Decimal.ofScientific negative (digitsValue 10 (ws ++ ds)) (e.getD 0 - ds.length)), cs)

/-- a whole number in another base -/
def based (base : Nat) (cs : List Char) : Option (Setting × List Char) :=
  (digits (fun c => ((hexValue? c).any fun d => d < base)) cs).map fun p => (.whole (digitsValue base p.1), p.2)

def number : Scan Setting := fun cs =>
  let other := match cs with
    | '0' :: 'x' :: rest => based 16 rest
    | '0' :: 'o' :: rest => based 8 rest
    | '0' :: 'b' :: rest => based 2 rest
    | _ => none
  match other with
  | some r => .ok r
  | none => decimal cs

/-! ## Dates and times -/

def fixedDigits : Nat → Reader (List Char)
  | 0, cs => some ([], cs)
  | n + 1, c :: rest => if c.isDigit then before c (fixedDigits n rest) else none
  | _ + 1, [] => none

/-- a number of two digits between two others -/
def between (low high : Nat) : Reader Nat := fun cs => do
  let (ds, cs) ← fixedDigits 2 cs
  let n := digitsValue 10 ds
  if low ≤ n && n ≤ high then return (n, cs) else none

/-- the text after a character -/
def expect (c : Char) : List Char → Option (List Char)
  | d :: rest => if d = c then some rest else none
  | [] => none

/-- microseconds of a fraction; what is finer does not count -/
def micros (ds : List Char) : Nat := digitsValue 10 ((ds ++ List.replicate 6 '0').take 6)

def clock : Reader Moment.Clock := fun cs => do
  let (hour, cs) ← between 0 23 cs
  let cs ← expect ':' cs
  let (minute, cs) ← between 0 59 cs
  let cs ← expect ':' cs
  let (second, cs) ← between 0 59 cs
  let after := match cs with
    | '.' :: rest => rest.takeWhile Char.isDigit
    | _ => []
  return (⟨hour, minute, second, micros after⟩, if after = [] then cs else cs.drop (after.length + 1))

def daysIn (year month : Nat) : Nat :=
  if month = 2 then (if year % 4 = 0 ∧ (year % 100 ≠ 0 ∨ year % 400 = 0) then 29 else 28)
  else if month = 4 ∨ month = 6 ∨ month = 9 ∨ month = 11 then 30
  else 31

/-- a distance from universal time in minutes, if there is one -/
def offset (cs : List Char) : Option Int × List Char :=
  match cs with
  | 'Z' :: rest | 'z' :: rest => (some 0, rest)
  | '+' :: rest | '-' :: rest =>
    let distance : Option (Nat × List Char) := do
      let (hours, rest) ← between 0 23 rest
      let rest ← expect ':' rest
      let (minutes, rest) ← between 0 59 rest
      return (hours * 60 + minutes, rest)
    match distance with
    | some (n, after) => (some (if (sign cs).1 then -(n : Int) else n), after)
    | none => (none, cs)
  | _ => (none, cs)

/-- a date by its form: day 31 is one of every month -/
def dateForm : Reader Moment.Day := fun cs => do
  let (year, cs) ← fixedDigits 4 cs
  let cs ← expect '-' cs
  let (month, cs) ← between 1 12 cs
  let cs ← expect '-' cs
  let (day, cs) ← between 1 31 cs
  return (⟨digitsValue 10 year, month, day⟩, cs)

/-- the time that follows a date, if one does -/
def clockAfter (cs : List Char) : Option (Moment.Clock × List Char) :=
  match cs with
  | c :: rest => if c = 'T' ∨ c = 't' ∨ c = ' ' then clock rest else none
  | [] => none

def isDay (d : Moment.Day) : Bool := 1 ≤ d.year && d.day ≤ daysIn d.year d.month

/-- what starts like a date has to be one -/
def dated (d : Moment.Day) (cs : List Char) : Option (Setting × List Char) :=
  if isDay d then
    match clockAfter cs with
    | some (c, after) =>
      let (o, after) := offset after
      some (.moment (.both d c o), after)
    | none => some (.moment (.day d), cs)
  else none

/-! ## Scalars -/

/-- the text after a word -/
def word (w : String) (cs : List Char) : Option (List Char) :=
  if w.toList.isPrefixOf cs then some (cs.drop w.length) else none

def words : List (String × Setting) :=
  [("true", .flag true), ("false", .flag false)]

def numberWords : List (String × Setting) :=
  [("inf", .real (.infinity false)), ("+inf", .real (.infinity false)), ("-inf", .real (.infinity true)),
   ("nan", .real .nan), ("+nan", .real .nan), ("-nan", .real .nan)]

/-- the value of the first word that the text starts with -/
def wordIn (ws : List (String × Setting)) (cs : List Char) : Option (Setting × List Char) :=
  ws.findSome? fun w => (word w.1 cs).map fun rest => (w.2, rest)

def scalar : Scan Setting := fun cs =>
  match cs with
  | '"' :: _ | '\'' :: _ => required ((quoted cs).map fun p => (.text p.1, p.2))
  | _ =>
    match wordIn words cs with
    | some r => .ok r
    | none =>
      match dateForm cs with
      | some (d, rest) => required (dated d rest)
      | none =>
        match clock cs with
        | some (c, rest) => .ok (.moment (.clock c), rest)
        | none =>
          match number cs with
          | .error .malformed => required (wordIn numberWords cs)
          | r => r

end SignalWiring.Toml
