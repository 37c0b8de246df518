import TokenSearch.Text.Hex

namespace TokenSearch.Digest.Sha256

/-! The SHA-256 digest of bytes, in lower-case hexadecimal digits. -/

def roundConstants : List UInt32 :=
  [0x428a2f98, 0x71374491, 0xb5c0fbcf, 0xe9b5dba5, 0x3956c25b, 0x59f111f1, 0x923f82a4, 0xab1c5ed5,
    0xd807aa98, 0x12835b01, 0x243185be, 0x550c7dc3, 0x72be5d74, 0x80deb1fe, 0x9bdc06a7, 0xc19bf174,
    0xe49b69c1, 0xefbe4786, 0x0fc19dc6, 0x240ca1cc, 0x2de92c6f, 0x4a7484aa, 0x5cb0a9dc, 0x76f988da,
    0x983e5152, 0xa831c66d, 0xb00327c8, 0xbf597fc7, 0xc6e00bf3, 0xd5a79147, 0x06ca6351, 0x14292967,
    0x27b70a85, 0x2e1b2138, 0x4d2c6dfc, 0x53380d13, 0x650a7354, 0x766a0abb, 0x81c2c92e, 0x92722c85,
    0xa2bfe8a1, 0xa81a664b, 0xc24b8b70, 0xc76c51a3, 0xd192e819, 0xd6990624, 0xf40e3585, 0x106aa070,
    0x19a4c116, 0x1e376c08, 0x2748774c, 0x34b0bcb5, 0x391c0cb3, 0x4ed8aa4a, 0x5b9cca4f, 0x682e6ff3,
    0x748f82ee, 0x78a5636f, 0x84c87814, 0x8cc70208, 0x90befffa, 0xa4506ceb, 0xbef9a3f7, 0xc67178f2]

/-- The eight words that a block is folded into. -/
structure State where
  a : UInt32
  b : UInt32
  c : UInt32
  d : UInt32
  e : UInt32
  f : UInt32
  g : UInt32
  h : UInt32

def State.initial : State :=
  ⟨0x6a09e667, 0xbb67ae85, 0x3c6ef372, 0xa54ff53a, 0x510e527f, 0x9b05688c, 0x1f83d9ab, 0x5be0cd19⟩

def rotate (x : UInt32) (n : UInt32) : UInt32 :=
  (x >>> n) ||| (x <<< (32 - n))

def State.round (s : State) (constant word : UInt32) : State :=
  let big1 := rotate s.e 6 ^^^ rotate s.e 11 ^^^ rotate s.e 25
  let choice := (s.e &&& s.f) ^^^ ((~~~ s.e) &&& s.g)
  let first := s.h + big1 + choice + constant + word
  let big0 := rotate s.a 2 ^^^ rotate s.a 13 ^^^ rotate s.a 22
  let majority := (s.a &&& s.b) ^^^ (s.a &&& s.c) ^^^ (s.b &&& s.c)
  ⟨first + (big0 + majority), s.a, s.b, s.c, s.d + first, s.e, s.f, s.g⟩

def State.add (s t : State) : State :=
  ⟨s.a + t.a, s.b + t.b, s.c + t.c, s.d + t.d, s.e + t.e, s.f + t.f, s.g + t.g, s.h + t.h⟩

def State.words (s : State) : List UInt32 :=
  [s.a, s.b, s.c, s.d, s.e, s.f, s.g, s.h]

/-- Extends the sixteen words of a block by `count` further ones. -/
def extend : (count : Nat) → Array UInt32 → Array UInt32
  | 0, words => words
  | count + 1, words =>
      let at_ (back : Nat) : UInt32 := words.getD (words.size - back) 0
      let x := at_ 15
      let y := at_ 2
      let small0 := rotate x 7 ^^^ rotate x 18 ^^^ (x >>> 3)
      let small1 := rotate y 17 ^^^ rotate y 19 ^^^ (y >>> 10)
      extend count (words.push (at_ 16 + small0 + at_ 7 + small1))

def wordOf (a b c d : UInt8) : UInt32 :=
  (a.toUInt32 <<< 24) ||| (b.toUInt32 <<< 16) ||| (c.toUInt32 <<< 8) ||| d.toUInt32

/-- The bytes as big-endian words; a rest of fewer than four bytes is left out. -/
def wordsOf : Bytes → List UInt32
  | a :: b :: c :: d :: rest => wordOf a b c d :: wordsOf rest
  | _ => []

def State.block (s : State) (words : List UInt32) : State :=
  let schedule := (extend 48 words.toArray).toList
  let folded := (roundConstants.zip schedule).foldl (fun t kw => t.round kw.1 kw.2) s
  s.add folded

/-- Folds the words sixteen at a time. -/
def State.blocks (s : State) (words : List UInt32) : State :=
  if words.isEmpty then s
  else (s.block (words.take 16)).blocks (words.drop 16)
termination_by words.length
decreasing_by
  rename_i filled
  have positive : 0 < words.length := by
    cases words with
    | nil => simp at filled
    | cons _ _ => simp
  simp only [List.length_drop]
  omega

def bigEndian : (count n : Nat) → Bytes
  | 0, _ => []
  | count + 1, n => bigEndian count (n / 256) ++ [UInt8.ofNat (n % 256)]

/-- A one bit, zeros up to a full block, and the length in bits. -/
def padding (length : Nat) : Bytes :=
  0x80 :: List.replicate ((119 - length % 64) % 64) 0 ++ bigEndian 8 (length * 8)

def digest (bytes : Bytes) : String :=
  let final := State.initial.blocks (wordsOf (bytes ++ padding bytes.length))
  Text.Hex.bytes (final.words.flatMap (fun w => bigEndian 4 w.toNat))

end TokenSearch.Digest.Sha256
