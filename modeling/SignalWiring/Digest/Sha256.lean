/-
SHA-256.

`digest` pads the message with a one bit, zero bits and its length to whole blocks of sixty-four bytes and folds the
compression function over the blocks. `hex` writes the eight words of the result in lower-case hexadecimal.
-/

namespace SignalWiring.Sha256

/-- the chaining value -/
structure Words where
  a : UInt32
  b : UInt32
  c : UInt32
  d : UInt32
  e : UInt32
  f : UInt32
  g : UInt32
  h : UInt32
  deriving DecidableEq, Repr

/-- fractional parts of the square roots of the first eight primes -/
def initial : Words :=
  ⟨0x6a09e667, 0xbb67ae85, 0x3c6ef372, 0xa54ff53a, 0x510e527f, 0x9b05688c, 0x1f83d9ab, 0x5be0cd19⟩

/-- fractional parts of the cube roots of the first sixty-four primes -/
def roundConstants : List UInt32 :=
  [0x428a2f98, 0x71374491, 0xb5c0fbcf, 0xe9b5dba5, 0x3956c25b, 0x59f111f1, 0x923f82a4, 0xab1c5ed5,
   0xd807aa98, 0x12835b01, 0x243185be, 0x550c7dc3, 0x72be5d74, 0x80deb1fe, 0x9bdc06a7, 0xc19bf174,
   0xe49b69c1, 0xefbe4786, 0x0fc19dc6, 0x240ca1cc, 0x2de92c6f, 0x4a7484aa, 0x5cb0a9dc, 0x76f988da,
   0x983e5152, 0xa831c66d, 0xb00327c8, 0xbf597fc7, 0xc6e00bf3, 0xd5a79147, 0x06ca6351, 0x14292967,
   0x27b70a85, 0x2e1b2138, 0x4d2c6dfc, 0x53380d13, 0x650a7354, 0x766a0abb, 0x81c2c92e, 0x92722c85,
   0xa2bfe8a1, 0xa81a664b, 0xc24b8b70, 0xc76c51a3, 0xd192e819, 0xd6990624, 0xf40e3585, 0x106aa070,
   0x19a4c116, 0x1e376c08, 0x2748774c, 0x34b0bcb5, 0x391c0cb3, 0x4ed8aa4a, 0x5b9cca4f, 0x682e6ff3,
   0x748f82ee, 0x78a5636f, 0x84c87814, 0x8cc70208, 0x90befffa, 0xa4506ceb, 0xbef9a3f7, 0xc67178f2]

def rotate (x : UInt32) (n : UInt32) : UInt32 := (x >>> n) ||| (x <<< (32 - n))

/-- mixes a word of the schedule, fifteen rounds back -/
def sigma0 (x : UInt32) : UInt32 := rotate x 7 ^^^ rotate x 18 ^^^ (x >>> 3)

/-- mixes a word of the schedule, two rounds back -/
def sigma1 (x : UInt32) : UInt32 := rotate x 17 ^^^ rotate x 19 ^^^ (x >>> 10)

/-- one round with its constant and its word of the schedule -/
def step (s : Words) (k w : UInt32) : Words :=
  let t1 := s.h + (rotate s.e 6 ^^^ rotate s.e 11 ^^^ rotate s.e 25) + ((s.e &&& s.f) ^^^ (~~~s.e &&& s.g)) + k + w
  let t2 := (rotate s.a 2 ^^^ rotate s.a 13 ^^^ rotate s.a 22) + ((s.a &&& s.b) ^^^ (s.a &&& s.c) ^^^ (s.b &&& s.c))
  ⟨t1 + t2, s.a, s.b, s.c, s.d + t1, s.e, s.f, s.g⟩

/-- the rounds; `window` holds the next sixteen words of the schedule -/
def rounds : List UInt32 → List UInt32 → Words → Words
  | [], _, s => s
  | _ :: _, [], s => s
  | k :: ks, w :: window, s =>
    let next := w + sigma0 (window.headD 0) + window.getD 8 0 + sigma1 (window.getD 13 0)
    rounds ks (window ++ [next]) (step s k w)

/-- big-endian words of a block -/
def wordsOf : List UInt8 → List UInt32
  | a :: b :: c :: d :: rest =>
    ((a.toUInt32 <<< 24) ||| (b.toUInt32 <<< 16) ||| (c.toUInt32 <<< 8) ||| d.toUInt32) :: wordsOf rest
  | _ => []

/-- one block onto the chaining value -/
def compress (s : Words) (block : List UInt8) : Words :=
  let r := rounds roundConstants (wordsOf block) s
  ⟨s.a + r.a, s.b + r.b, s.c + r.c, s.d + r.d, s.e + r.e, s.f + r.f, s.g + r.g, s.h + r.h⟩

/-- the last eight bytes of `n`, big-endian -/
def lengthBytes (n : Nat) : List UInt8 :=
  [56, 48, 40, 32, 24, 16, 8, 0].map fun s => ((n >>> s) % 256).toUInt8

def pad (message : List UInt8) : List UInt8 :=
  let zeros := (119 - message.length % 64) % 64
  message ++ 0x80 :: (List.replicate zeros 0 ++ lengthBytes (8 * message.length))

/-- cut into blocks; `fuel` bounds their number -/
def blocks : (fuel : Nat) → List UInt8 → List (List UInt8)
  | 0, _ => []
  | _, [] => []
  | fuel + 1, bytes => bytes.take 64 :: blocks fuel (bytes.drop 64)

/-- the chaining value after the whole message -/
def digest (message : List UInt8) : Words :=
  let padded := pad message
  (blocks padded.length padded).foldl compress initial

/-- eight lower-case hexadecimal digits -/
def hexWord (w : UInt32) : List Char :=
  [28, 24, 20, 16, 12, 8, 4, 0].map fun s =>
    let d := (w.toNat >>> s) % 16
    Char.ofNat (if d < 10 then 48 + d else 87 + d)

/-- sixty-four lower-case hexadecimal digits -/
def hex (message : List UInt8) : String :=
  let s := digest message
  String.ofList ([s.a, s.b, s.c, s.d, s.e, s.f, s.g, s.h].flatMap hexWord)

/-- A padded message is a whole number of blocks. -/
theorem length_pad_mod (message : List UInt8) : (pad message).length % 64 = 0 := by
  simp only [pad, lengthBytes, List.length_append, List.length_cons, List.length_replicate, List.length_map,
    List.length_nil]
  omega

end SignalWiring.Sha256
