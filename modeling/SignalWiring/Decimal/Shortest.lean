/-
Decimal text of binary floating point numbers, and back.

A finite double is `m * 2 ^ q` with natural `m`. `digitsOf` finds the shortest decimal that reads back as the same
double, and of those the nearest to it: for one, two, … digits it tries the two multiples of the decimal unit around the
value, in exact arithmetic. `ofScientific` reads `m * 10 ^ e` to the nearest double, ties to the even one.

`text` writes the digits: positional from `1e-4` to below `1e16` with at least one digit after the point, otherwise with
an exponent of at least two digits and its sign.
-/

namespace SignalWiring.Decimal

/-- a double-precision number, by its bits -/
structure Double where
  bits : UInt64
  deriving DecidableEq, Repr, Inhabited

namespace Double

def signBit : Nat := 1 <<< 63

/-- the value of the bit above the fraction, which normal numbers have without storing it -/
def hiddenBit : Nat := 1 <<< 52

def isNegative (x : Double) : Bool := x.bits.toNat >>> 63 = 1

def exponentBits (x : Double) : Nat := (x.bits.toNat >>> 52) % 0x800

def fractionBits (x : Double) : Nat := x.bits.toNat % hiddenBit

def isNaN (x : Double) : Bool := x.exponentBits = 2047 && x.fractionBits ≠ 0

def isInfinite (x : Double) : Bool := x.exponentBits = 2047 && x.fractionBits = 0

def isZero (x : Double) : Bool := x.exponentBits = 0 && x.fractionBits = 0

/-- `m` of the finite value `m * 2 ^ q` -/
def significand (x : Double) : Nat :=
  if x.exponentBits = 0 then x.fractionBits else hiddenBit + x.fractionBits

/-- `q` of the finite value `m * 2 ^ q` -/
def scale (x : Double) : Int :=
  if x.exponentBits = 0 then -1074 else (x.exponentBits : Int) - 1075

/-- a double from its sign, exponent and fraction bits -/
def ofParts (negative : Bool) (rest : Nat) : Double :=
  ⟨((if negative then signBit else 0) + rest).toUInt64⟩

def infinity (negative : Bool) : Double := ofParts negative (2047 * hiddenBit)

def nan : Double := ofParts false (2047 * hiddenBit + hiddenBit / 2)

/-- the value is below one; nothing is known of what is not a number -/
def ltOne (x : Double) : Bool :=
  if x.isNaN then false
  else if x.isNegative then true
  else x.exponentBits < 1023

def gtOne (x : Double) : Bool :=
  !x.isNaN && !x.isNegative && (x.exponentBits > 1023 || (x.exponentBits = 1023 && x.fractionBits ≠ 0))

end Double

/-! ## Reading -/

/-- `10 ^ n` -/
def tenTo : Nat → Nat
  | 0 => 1
  | n + 1 => 10 * tenTo n

/-- the number has more than so many decimal digits -/
def overlong (digits : Nat) (n : Int) : Bool := tenTo digits ≤ n.natAbs

theorem tenTo_pos (n : Nat) : 0 < tenTo n := by
  induction n with
  | zero => exact Nat.one_pos
  | succ n ih => exact Nat.mul_pos (by decide) ih

theorem overlong_zero (digits : Nat) : overlong digits 0 = false :=
  decide_eq_false (Nat.not_le.2 (tenTo_pos digits))

/-- whole numbers are written in decimal and read from it as long as they have no more digits than this -/
def maxDigits : Nat := 4300

/-- `num / den` to the nearest natural, a half to the even one -/
def roundHalfEven (num den : Nat) : Nat :=
  let q := num / den
  let r := num % den
  if 2 * r < den then q
  else if 2 * r = den then (if q % 2 = 0 then q else q + 1)
  else q + 1

/-- sign bits aside, the bits of the double nearest to `num / den`, both positive -/
def nearestBits (num den : Nat) : Nat :=
  let guess : Int := (Nat.log2 num : Int) - Nat.log2 den
  -- one step down when `num / den` is below the power of two of the guess
  let atLeast (e : Int) : Bool := if e ≥ 0 then den <<< e.toNat ≤ num else den ≤ num <<< (-e).toNat
  let top : Int := if atLeast guess then guess else guess - 1
  let q : Int := max (top - 52) (-1074)
  let m := if q ≥ 0 then roundHalfEven num (den <<< q.toNat) else roundHalfEven (num <<< (-q).toNat) den
  -- a subnormal has exponent bits zero, and a carry out of the fraction raises the exponent by itself
  let bits := if m < Double.hiddenBit then m else (q + 1074).toNat * Double.hiddenBit + m
  min bits (2047 * Double.hiddenBit)

/-- the double nearest to `m * 10 ^ e` -/
def ofScientific (negative : Bool) (m : Nat) (e : Int) : Double :=
  if m = 0 then Double.ofParts negative 0
  else
    let size : Int := (Nat.toDigits 10 m).length + e
    if size > 310 then Double.infinity negative
    else if size < -330 then Double.ofParts negative 0
    else
      Double.ofParts negative
        (if e ≥ 0 then nearestBits (m * tenTo e.toNat) 1 else nearestBits m (tenTo (-e).toNat))

/-! ## Writing -/

/-- `m * 2 ^ q` and the ends of the interval that rounds to it, all over one denominator -/
structure Interval where
  low : Nat
  value : Nat
  high : Nat
  den : Nat
  closed : Bool

/-- the interval of the reals that read as the positive finite double -/
def intervalOf (x : Double) : Interval :=
  let m := x.significand
  let q := x.scale
  -- in quarters of the unit in the last place; below a power of two the lower half is narrower
  let low := if x.fractionBits = 0 && x.exponentBits > 1 then 4 * m - 1 else 4 * m - 2
  let k := if q ≥ 0 then 1 <<< q.toNat else 1
  ⟨low * k, 4 * m * k, (4 * m + 2) * k, if q ≥ 0 then 4 else 4 <<< (-q).toNat, m % 2 = 0⟩

/-- the multiple `d` of `10 ^ p` lies in the interval -/
def Interval.holds (i : Interval) (d : Nat) (p : Int) : Bool :=
  let x := if p ≥ 0 then d * tenTo p.toNat * i.den else d * i.den
  let k := if p ≥ 0 then 1 else tenTo (-p).toNat
  if i.closed then i.low * k ≤ x && x ≤ i.high * k else i.low * k < x && x < i.high * k

/-- the nearest multiple of `10 ^ p` that lies in the interval -/
def Interval.pick (i : Interval) (p : Int) : Option Nat :=
  let num := if p ≥ 0 then i.value else i.value * tenTo (-p).toNat
  let den := if p ≥ 0 then i.den * tenTo p.toNat else i.den
  let d := num / den
  let r := num % den
  let down := d > 0 && i.holds d p
  let up := i.holds (d + 1) p
  if down && up then some (if 2 * r ≤ den then d else d + 1)
  else if down then some d
  else if up then some (d + 1)
  else none

/-- try the units `10 ^ p`, `10 ^ (p - 1)`, … -/
def Interval.search (i : Interval) : (fuel : Nat) → (p : Int) → Nat × Int
  | 0, p => (i.value, p)
  | fuel + 1, p =>
    match i.pick p with
    | some d => (d, p)
    | none => i.search fuel (p - 1)

/-- the power of ten at or above a positive fraction, found from above -/
def tenAbove (num den : Nat) : (fuel : Nat) → (p : Int) → Int
  | 0, p => p
  | fuel + 1, p =>
    let below := if p ≥ 0 then num < den * tenTo p.toNat else num * tenTo (-p).toNat < den
    if below then tenAbove num den fuel (p - 1) else p + 1

/-- the shortest decimal `d * 10 ^ p` of a positive finite double -/
def digitsOf (x : Double) : Nat × Int :=
  let i := intervalOf x
  let guess : Int := ((Nat.log2 i.value : Int) - Nat.log2 i.den) * 30103 / 100000 + 3
  i.search 40 (tenAbove i.value i.den 8 guess)

/-- the positional notation of `digits * 10 ^ p` -/
def positional (digits : List Char) (p : Int) : List Char :=
  if p ≥ 0 then digits ++ List.replicate p.toNat '0' ++ ['.', '0']
  else
    let places := (-p).toNat
    if digits.length > places then digits.take (digits.length - places) ++ '.' :: digits.drop (digits.length - places)
    else '0' :: '.' :: (List.replicate (places - digits.length) '0' ++ digits)

/-- the exponent with its sign and at least two digits -/
def exponentText (e : Int) : List Char :=
  let ds := Nat.toDigits 10 e.natAbs
  (if e < 0 then '-' else '+') :: (if ds.length < 2 then '0' :: ds else ds)

def stripZeros (digits : List Char) (p : Int) : List Char × Int :=
  let kept := (digits.reverse.dropWhile (· == '0')).reverse
  (kept, p + (digits.length - kept.length : Nat))

/-- the text of a double -/
def text (x : Double) : String :=
  if x.isNaN then "nan"
  else
    let sign := if x.isNegative then ['-'] else []
    if x.isInfinite then String.ofList (sign ++ ['i', 'n', 'f'])
    else if x.isZero then String.ofList (sign ++ ['0', '.', '0'])
    else
      let (d, p) := digitsOf x
      let (digits, p) := stripZeros (Nat.toDigits 10 d) p
      let e := p + (digits.length : Int) - 1
      if -4 ≤ e && e < 16 then String.ofList (sign ++ positional digits p)
      else
        match digits with
        | [] => "0.0"
        | [c] => String.ofList (sign ++ c :: 'e' :: exponentText e)
        | c :: rest => String.ofList (sign ++ c :: '.' :: (rest ++ 'e' :: exponentText e))

end SignalWiring.Decimal
