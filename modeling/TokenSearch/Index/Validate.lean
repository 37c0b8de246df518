import TokenSearch.Index.Reader

namespace TokenSearch

/-! Whether the posting lists and the token streams of an index agree. -/

/-- A disagreement between posting lists and token streams. -/
inductive Disagreement where
  | unsorted (identity : SeenIdentity)
  | unknownFile (file : Int)
  | missingToken (token : Int) (path : Cell)
  | otherToken (token : Int) (path found expected : Cell)
  | totals (postings : Nat) (tokens : Cell)
deriving DecidableEq, Repr

def Disagreement.message : Disagreement → String
  | .unsorted identity =>
      "Posting list for " ++ identity.kind.name ++ " " ++ identity.text.shown ++
        " is not strictly sorted"
  | .unknownFile file => "Posting references unknown file id " ++ toString file
  | .missingToken token path =>
      "Posting references missing token " ++ toString token ++ " in " ++ path.words
  | .otherToken token path found expected =>
      "Token " ++ toString token ++ " in " ++ path.words ++ " is " ++ found.shown ++
        ", posting says " ++ expected.shown
  | .totals postings tokens =>
      "Posting map holds " ++ toString postings ++ " entries for " ++ tokens.words ++ " tokens"

namespace Validate

/-- What is wrong with one posting of `identity`. -/
def checkPosting (reader : Reader) (identity : SeenIdentity) (posting : Posting) :
    Except Fault (List Disagreement) :=
  if 0 ≤ posting.file ∧ posting.file < reader.entries.length then
    match reader.entries[posting.file.toNat]? with
    | none => .ok [.unknownFile posting.file]
    | some entry => do
        let window ← reader.window posting.file posting.token (posting.token + 1)
        match window with
        | [] => return [.missingToken posting.token entry.path]
        | token :: _ =>
            if posting.token < 0 then return [.missingToken posting.token entry.path]
            else if token.identity = identity then return []
            else return [.otherToken posting.token entry.path token.text identity.text]
  else .ok [.unknownFile posting.file]

/-- Checks a posting list from left to right and stops where it does not ascend. -/
def checkList (reader : Reader) (identity : SeenIdentity) (previous : Option Posting) :
    List Posting → Except Fault (List Disagreement)
  | [] => .ok []
  | posting :: rest =>
      if previous.any (fun earlier => !earlier.before posting) then .ok [.unsorted identity]
      else do
        let here ← checkPosting reader identity posting
        let later ← checkList reader identity (some posting) rest
        return here ++ later

/-- The disagreements of the lists of the given identities, and how many postings they hold. -/
def checkLists (reader : Reader) :
    List (Except Fault SeenIdentity) → Except Fault (List Disagreement × Nat)
  | [] => .ok ([], 0)
  | member :: rest => do
      let identity ← member
      let postings ← reader.postingsOf identity
      let here ← checkList reader identity none postings
      let (later, total) ← checkLists reader rest
      return (here ++ later, postings.length + total)

end Validate

/-- All disagreements of an index; none if posting lists and token streams agree. -/
def Reader.validate (reader : Reader) : Except Fault (List Disagreement) := do
  let tokens ← totalTokens reader.entries
  let listed ← reader.identities
  let (found, postings) ← Validate.checkLists reader listed
  return if tokens.agrees (.integer postings) then found else found ++ [.totals postings tokens]

end TokenSearch
