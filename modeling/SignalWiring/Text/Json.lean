/-
JSON strings in ASCII.

Printable ASCII characters stand for themselves, except the quote and the backslash, which get a backslash. Five controls
have letters; every other character is written by its UTF-16 units in four hexadecimal digits each.
-/
import SignalWiring.Text.Quoted

namespace SignalWiring.Text

def units16 (c : Char) : List Nat :=
  let n := c.toNat
  if n < 0x10000 then [n] else [0xD800 + (n - 0x10000) / 0x400, 0xDC00 + (n - 0x10000) % 0x400]

/-- a character inside a JSON string -/
def jsonChar (c : Char) : List Char :=
  if c = '"' ∨ c = '\\' then ['\\', c]
  else if 32 ≤ c.toNat ∧ c.toNat < 127 then [c]
  else if c = '\n' then ['\\', 'n']
  else if c = '\r' then ['\\', 'r']
  else if c = '\t' then ['\\', 't']
  else if c.toNat = 8 then ['\\', 'b']
  else if c.toNat = 12 then ['\\', 'f']
  else (units16 c).flatMap fun n => '\\' :: 'u' :: hexDigits 4 n

def jsonString (s : String) : String := String.ofList ('"' :: (s.toList.flatMap jsonChar ++ ['"']))

end SignalWiring.Text
