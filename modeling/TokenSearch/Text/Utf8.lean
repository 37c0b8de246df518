namespace TokenSearch

/-- Contents of a file, and anything else that is not known to be text. -/
abbrev Bytes := List UInt8

end TokenSearch

namespace TokenSearch.Text.Utf8

/-! UTF-8 as a state machine over bytes. `decode` accepts exactly the well-formed texts and names
the first ill-formed sequence otherwise; `decodeLossy` replaces each ill-formed sequence by
U+FFFD and goes on behind it. -/

/-- Why a sequence of bytes is ill-formed. -/
inductive Reason where
  | start
  | continuation
  | unexpectedEnd
deriving DecidableEq, Repr

def Reason.message : Reason → String
  | .start => "invalid start byte"
  | .continuation => "invalid continuation byte"
  | .unexpectedEnd => "unexpected end of data"

/-- The first ill-formed sequence: the offset of its first byte, that byte, and how many bytes
belong to it. -/
structure Malformed where
  offset : Nat
  first : UInt8
  width : Nat
  reason : Reason
deriving DecidableEq, Repr

/-- A character of which some bytes are still to come. The next one must lie between `low` and
`high`, which rules out overlong forms, surrogates and values above U+10FFFF. -/
structure Pending where
  value : Nat
  missing : Nat
  low : UInt8
  high : UInt8
  first : UInt8
  seen : Nat
deriving DecidableEq, Repr

/-- What a byte at the start of a character announces. -/
inductive Lead where
  | single (char : Char)
  | opens (pending : Pending)
  | invalid

def lead (byte : UInt8) : Lead :=
  let n := byte.toNat
  if n < 0x80 then .single (Char.ofNat n)
  else if n < 0xC2 then .invalid
  else if n < 0xE0 then .opens ⟨n - 0xC0, 1, 0x80, 0xBF, byte, 1⟩
  else if n < 0xF0 then
    .opens ⟨n - 0xE0, 2, if n = 0xE0 then 0xA0 else 0x80, if n = 0xED then 0x9F else 0xBF, byte, 1⟩
  else if n < 0xF5 then
    .opens ⟨n - 0xF0, 3, if n = 0xF0 then 0x90 else 0x80, if n = 0xF4 then 0x8F else 0xBF, byte, 1⟩
  else .invalid

/-- What a further byte makes of a pending character. -/
inductive Fed where
  | complete (char : Char)
  | more (pending : Pending)
  | refused

def Pending.feed (pending : Pending) (byte : UInt8) : Fed :=
  if byte < pending.low || pending.high < byte then .refused
  else
    let value := pending.value * 64 + (byte.toNat - 0x80)
    if pending.missing ≤ 1 then .complete (Char.ofNat value)
    else .more ⟨value, pending.missing - 1, 0x80, 0xBF, pending.first, pending.seen + 1⟩

/-- Decodes on from `offset`; `chars` holds what was decoded so far, last character first. -/
def decodeFrom (offset : Nat) (pending : Option Pending) (chars : List Char) :
    Bytes → Except Malformed (List Char)
  | [] =>
      match pending with
      | none => .ok chars.reverse
      | some p => .error ⟨offset - p.seen, p.first, p.seen, .unexpectedEnd⟩
  | byte :: rest =>
      match pending with
      | none =>
          match lead byte with
          | .single c => decodeFrom (offset + 1) none (c :: chars) rest
          | .opens p => decodeFrom (offset + 1) (some p) chars rest
          | .invalid => .error ⟨offset, byte, 1, .start⟩
      | some p =>
          match p.feed byte with
          | .complete c => decodeFrom (offset + 1) none (c :: chars) rest
          | .more q => decodeFrom (offset + 1) (some q) chars rest
          | .refused => .error ⟨offset - p.seen, p.first, p.seen, .continuation⟩

def decode (bytes : Bytes) : Except Malformed (List Char) :=
  decodeFrom 0 none [] bytes

def decodeString (bytes : Bytes) : Except Malformed String :=
  (decode bytes).map String.ofList

def replacement : Char := Char.ofNat 0xFFFD

/-- The lossy reading of one byte at the start of a character. -/
def restart (chars : List Char) (byte : UInt8) : Option Pending × List Char :=
  match lead byte with
  | .single c => (none, c :: chars)
  | .opens p => (some p, chars)
  | .invalid => (none, replacement :: chars)

def decodeLossyFrom (pending : Option Pending) (chars : List Char) : Bytes → List Char
  | [] =>
      match pending with
      | none => chars.reverse
      | some _ => (replacement :: chars).reverse
  | byte :: rest =>
      match pending with
      | none =>
          let (next, more) := restart chars byte
          decodeLossyFrom next more rest
      | some p =>
          match p.feed byte with
          | .complete c => decodeLossyFrom none (c :: chars) rest
          | .more q => decodeLossyFrom (some q) chars rest
          | .refused =>
              let (next, more) := restart (replacement :: chars) byte
              decodeLossyFrom next more rest

def decodeLossy (bytes : Bytes) : String :=
  String.ofList (decodeLossyFrom none [] bytes)

def encode (chars : List Char) : Bytes :=
  chars.flatMap String.utf8EncodeChar

def encodeString (text : String) : Bytes :=
  encode text.toList

/-- Number of bytes that the characters take. -/
def size (chars : List Char) : Nat :=
  chars.foldl (fun total c => total + c.utf8Size) 0

end TokenSearch.Text.Utf8
