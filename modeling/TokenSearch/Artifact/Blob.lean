import TokenSearch.Fault
import TokenSearch.Index.Model

namespace TokenSearch.Artifact.Blob

/-! Posting lists as bytes: the file and the place of each posting, as words of four bytes with the
least significant byte first. -/

/-- The first number that takes more than four bytes: 2^32. -/
def wordLimit : Int := 4294967296

/-- The first number that takes more than eight bytes: 2^64. -/
def longWordLimit : Int := 18446744073709551616

/-- The words that a blob can hold are those from zero to below 2^32. -/
def encodeWord (n : Int) : Except Fault Bytes :=
  if n < 0 then .error .negativeWord
  else if longWordLimit ≤ n then .error .wordTooWide
  else if wordLimit ≤ n then .error .wordTooLarge
  else
    let m := n.toNat
    .ok [UInt8.ofNat (m % 256), UInt8.ofNat (m / 256 % 256), UInt8.ofNat (m / 65536 % 256),
      UInt8.ofNat (m / 16777216 % 256)]

def encode : List Posting → Except Fault Bytes
  | [] => .ok []
  | posting :: rest => do
      let file ← encodeWord posting.file
      let token ← encodeWord posting.token
      return file ++ token ++ (← encode rest)

/-- The number that four bytes stand for; `swapped` turns their order round. -/
def decodeWord (swapped : Bool) (a b c d : UInt8) : Int :=
  if swapped then
    ((a.toNat * 256 + b.toNat) * 256 + c.toNat) * 256 + d.toNat
  else
    ((d.toNat * 256 + c.toNat) * 256 + b.toNat) * 256 + a.toNat

/-- The words of a blob; its length must be a multiple of four. -/
def words (swapped : Bool) : Bytes → Except Fault (List Int)
  | [] => .ok []
  | a :: b :: c :: d :: rest => do
      return decodeWord swapped a b c d :: (← words swapped rest)
  | _ => .error .unevenBlob

/-- Words in pairs; an odd word has no partner. -/
def pairs : List Int → Option (List Posting)
  | [] => some []
  | file :: token :: rest => (pairs rest).map (⟨file, token⟩ :: ·)
  | [_] => none

/-- Reads the blob of the identity with text `text` in the artifact at `path`. -/
def decode (path : Path) (text : Cell) (swapped : Bool) (blob : Bytes) :
    Except Fault (List Posting) := do
  let numbers ← words swapped blob
  match pairs numbers with
  | some postings => return postings
  | none => .error (.indexCorrupt path (.oddBlob text))

end TokenSearch.Artifact.Blob
