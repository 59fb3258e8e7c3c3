/-
UTF-8.

`encode` writes a text as bytes. `decode` reads bytes and either gives the text or the first ill-formed run, with its
place and what is wrong with it; `decodeLossy` puts U+FFFD for each ill-formed run and goes on. An ill-formed run is the
longest start of a sequence that was well formed so far, or one byte that starts none.
-/

namespace SignalWiring.Text.Utf8

/-! ## Encoding -/

def encodeChar (c : Char) : List UInt8 :=
  let n := c.toNat
  if n < 0x80 then [n.toUInt8]
  else if n < 0x800 then [(0xC0 + n / 0x40).toUInt8, (0x80 + n % 0x40).toUInt8]
  else if n < 0x10000 then
    [(0xE0 + n / 0x1000).toUInt8, (0x80 + n / 0x40 % 0x40).toUInt8, (0x80 + n % 0x40).toUInt8]
  else
    [(0xF0 + n / 0x40000).toUInt8, (0x80 + n / 0x1000 % 0x40).toUInt8, (0x80 + n / 0x40 % 0x40).toUInt8,
      (0x80 + n % 0x40).toUInt8]

def encode (s : String) : List UInt8 := s.toList.flatMap encodeChar

/-- how many bytes a character takes -/
def width (c : Char) : Nat := (encodeChar c).length

/-! ## Decoding -/

/-- what is wrong with an ill-formed run -/
inductive Reason where
  /-- the first byte starts no sequence -/
  | start
  /-- the byte after the run cannot continue it -/
  | continuation
  /-- the input ends inside the sequence -/
  | ended
  deriving DecidableEq, Repr, Inhabited

def Reason.text : Reason → String
  | .start => "invalid start byte"
  | .continuation => "invalid continuation byte"
  | .ended => "unexpected end of data"

/-- an ill-formed run: its first byte, where it begins, its length, and what is wrong -/
structure Fault where
  byte : UInt8
  position : Nat
  length : Nat
  reason : Reason
  deriving DecidableEq, Repr, Inhabited

/-- what the first bytes of an input are -/
inductive Head where
  /-- a character of so many bytes -/
  | char (c : Char) (length : Nat)
  /-- an ill-formed run of so many bytes -/
  | bad (length : Nat) (reason : Reason)

/-- a byte of the form `10xxxxxx` -/
def isTail (b : UInt8) : Bool := 0x80 ≤ b && b ≤ 0xBF

/-- the last six bits of a byte -/
def low (b : UInt8) : Nat := b.toNat % 0x40

/-- the second bytes that may follow the lead byte `a` -/
def isSecond (a b : UInt8) : Bool :=
  if a == 0xE0 then 0xA0 ≤ b && b ≤ 0xBF
  else if a == 0xED then 0x80 ≤ b && b ≤ 0x9F
  else if a == 0xF0 then 0x90 ≤ b && b ≤ 0xBF
  else if a == 0xF4 then 0x80 ≤ b && b ≤ 0x8F
  else isTail b

/-- the bytes that a lead byte announces, itself included -/
def announced (a : UInt8) : Option Nat :=
  if a < 0x80 then some 1
  else if a < 0xC2 then none
  else if a < 0xE0 then some 2
  else if a < 0xF0 then some 3
  else if a < 0xF5 then some 4
  else none

/-- read `n` more tail bytes onto the code point `acc`, of a sequence of which `seen` bytes are read -/
def readTails : (n acc seen : Nat) → List UInt8 → Head
  | 0, acc, seen, _ => .char (Char.ofNat acc) seen
  | _ + 1, _, seen, [] => .bad seen .ended
  | n + 1, acc, seen, b :: rest =>
    if isTail b then readTails n (acc * 0x40 + low b) (seen + 1) rest else .bad seen .continuation

/-- the head of an input that starts with `a` -/
def head (a : UInt8) (rest : List UInt8) : Head :=
  match announced a with
  | none => .bad 1 .start
  | some 1 => .char (Char.ofNat a.toNat) 1
  | some n =>
    match rest with
    | [] => .bad 1 .ended
    | b :: more =>
      if isSecond a b then
        readTails (n - 2) ((if n = 2 then a.toNat % 0x20 else if n = 3 then a.toNat % 0x10 else a.toNat % 8) * 0x40 + low b)
          2 more
      else .bad 1 .continuation

/-- decode from byte position `pos` on; `fuel` bounds the number of heads -/
def decodeFrom : (fuel pos : Nat) → List UInt8 → Except Fault (List Char)
  | _, _, [] => .ok []
  | 0, _, _ :: _ => .ok []
  | fuel + 1, pos, a :: rest =>
    match head a rest with
    | .char c n => (decodeFrom fuel (pos + n) (rest.drop (n - 1))).map (c :: ·)
    | .bad n reason => .error ⟨a, pos, n, reason⟩

def decode (bytes : List UInt8) : Except Fault String :=
  (decodeFrom bytes.length 0 bytes).map String.ofList

/-- the text with U+FFFD for each ill-formed run; `fuel` bounds the number of heads -/
def lossyFrom : (fuel : Nat) → List UInt8 → List Char
  | _, [] => []
  | 0, _ :: _ => []
  | fuel + 1, a :: rest =>
    match head a rest with
    | .char c n => c :: lossyFrom fuel (rest.drop (n - 1))
    | .bad n _ => Char.ofNat 0xFFFD :: lossyFrom fuel (rest.drop (n - 1))

/-- the text that the bytes spell, with U+FFFD for each ill-formed run -/
def decodeLossy (bytes : List UInt8) : String := String.ofList (lossyFrom bytes.length bytes)

/-! ## Wording -/

/-- two lower-case hexadecimal digits -/
def hexByte (b : UInt8) : String :=
  let digit (d : Nat) : Char := Char.ofNat (if d < 10 then 48 + d else 87 + d)
  String.ofList [digit (b.toNat / 16), digit (b.toNat % 16)]

/-- A run of one byte is shown with the byte, a longer one by its first and last position. -/
def Fault.message (f : Fault) : String :=
  if f.length ≤ 1 then
    s!"'utf-8' codec can't decode byte 0x{hexByte f.byte} in position {f.position}: {f.reason.text}"
  else
    s!"'utf-8' codec can't decode bytes in position {f.position}-{f.position + f.length - 1}: {f.reason.text}"

end SignalWiring.Text.Utf8
