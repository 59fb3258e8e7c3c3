/-
Quoted forms of a text.

`quote` is the reading form used in messages: in single quotes, or in double quotes when the text holds a single quote
and no double one. The quote in use and the backslash are escaped, line feed, carriage return and tab have letters, any
other unprintable character is written by its code point in two, four or eight hexadecimal digits, and all else stands
for itself.

`literal` is the string literal of the emitted source: in double quotes, with a backslash before each backslash and each
double quote. `readLiteral` reads one back: a backslash makes the next character literal, and the first double quote
without one ends it.
-/
import SignalWiring.Text.PrintableRanges

namespace SignalWiring.Text

/-- the lower-case hexadecimal digit of `n % 16` -/
def hexDigit (n : Nat) : Char :=
  let d := n % 16
  Char.ofNat (if d < 10 then 48 + d else 87 + d)

/-- the last `width` hexadecimal digits of `n` -/
def hexDigits : Nat → Nat → List Char
  | 0, _ => []
  | width + 1, n => hexDigits width (n / 16) ++ [hexDigit n]

/-- a character that shows as itself -/
def isPrintable (c : Char) : Bool :=
  if c.toNat < 127 then 32 ≤ c.toNat else !unprintable.has c

def quoteMark (cs : List Char) : Char :=
  if cs.contains '\'' && !cs.contains '"' then '"' else '\''

def quoteChar (q c : Char) : List Char :=
  if c == q || c == '\\' then ['\\', c]
  else if c == '\n' then ['\\', 'n']
  else if c == '\r' then ['\\', 'r']
  else if c == '\t' then ['\\', 't']
  else if isPrintable c then [c]
  else if c.toNat < 0x100 then '\\' :: 'x' :: hexDigits 2 c.toNat
  else if c.toNat < 0x10000 then '\\' :: 'u' :: hexDigits 4 c.toNat
  else '\\' :: 'U' :: hexDigits 8 c.toNat

/-- the reading form of a text -/
def quote (s : String) : String :=
  let q := quoteMark s.toList
  String.ofList (q :: (s.toList.flatMap (quoteChar q) ++ [q]))

/-- the inside of a string literal -/
def escapeLiteral : List Char → List Char
  | [] => []
  | c :: rest => if c = '\\' ∨ c = '"' then '\\' :: c :: escapeLiteral rest else c :: escapeLiteral rest

def literal (s : String) : String :=
  String.ofList ('"' :: (escapeLiteral s.toList ++ ['"']))

/-- the text of the literal whose opening quote has been read, and what follows its closing quote -/
def readLiteral : List Char → Option (List Char × List Char)
  | [] => none
  | '"' :: rest => some ([], rest)
  | ['\\'] => none
  | '\\' :: c :: rest => (readLiteral rest).map fun r => (c :: r.1, r.2)
  | c :: rest => (readLiteral rest).map fun r => (c :: r.1, r.2)

/-- A literal reads back as its text, whatever follows it. -/
theorem readLiteral_escapeLiteral (cs rest : List Char) :
    readLiteral (escapeLiteral cs ++ '"' :: rest) = some (cs, rest) := by
  induction cs with
  | nil => rfl
  | cons c cs ih =>
    by_cases h : c = '\\' ∨ c = '"'
    · simp [escapeLiteral, h, readLiteral, ih]
    · simp only [not_or] at h
      simp only [escapeLiteral, h.1, h.2, or_self, if_false, List.cons_append]
      rw [readLiteral.eq_5 _ _ (fun hc => h.2 hc) (fun hc _ => h.1 hc) (fun _ _ hc _ => h.1 hc), ih]
      rfl

end SignalWiring.Text
