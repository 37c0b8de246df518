import TokenSearch.Search.Hit

namespace TokenSearch

/-! A search with its hits and its counts. A limit caps the hits that are shown and never the
counts. -/

structure Stats where
  candidates : Nat
  matches_ : Nat
  files : Nat
  truncated : Bool
deriving DecidableEq, Repr

structure Response where
  query : String
  tokens : List String
  hits : List Hit
  stats : Stats
deriving DecidableEq, Repr

namespace Search

/-- How far a search has come: the matches and files counted, the file at hand with its bytes as
far as they were read, and the hits, the latest first. -/
structure Progress where
  total : Nat
  files : Nat
  file : Option Int
  source : Bytes
  hits : List Hit

def Progress.start : Progress := ⟨0, 0, none, [], []⟩

/-- Counts a match, and shows it unless the limit is reached. The bytes of a file are read once for
all its matches in a row. -/
def Progress.step (reader : Reader) (limit : Option Nat) (p : Progress) (found : Match) :
    Except Fault Progress := do
  let p := { p with total := p.total + 1 }
  let p :=
    if p.file = some found.file then p
    else { p with files := p.files + 1, file := some found.file, source := [] }
  if limit.any (fun most => most ≤ p.hits.length) then return p
  let source ← if p.source.isEmpty then reader.source found.file else .ok p.source
  let hit ← renderFrom reader found source
  return { p with source, hits := hit :: p.hits }

/-- No limit and a limit of zero both mean all; a limit below zero is a fault. -/
def effectiveLimit : Option Int → Except Fault (Option Nat)
  | none => .ok none
  | some limit =>
      if limit < 0 then .error (.negativeLimit limit)
      else if limit = 0 then .ok none
      else .ok (some limit.toNat)

end Search

/-- Searches a compiled query. -/
def Reader.search (reader : Reader) (query : Query) (limit : Option Int) :
    Except Fault Response := do
  let limit ← Search.effectiveLimit limit
  let candidates ← reader.candidates query
  let yield := Search.verify reader query candidates
  let progress ← yield.found.foldlM (Search.Progress.step reader limit) .start
  match yield.failure with
  | some fault => .error fault
  | none =>
      return {
        query := query.text
        tokens := query.texts
        hits := progress.hits.reverse
        stats := {
          candidates := candidates.length
          matches_ := progress.total
          files := progress.files
          truncated := progress.hits.length < progress.total } }

/-- Searches a text. The limit is looked at before the text. -/
def Reader.searchText (reader : Reader) (text : Text.RawText) (limit : Option Int) :
    Except Fault Response := do
  let _ ← Search.effectiveLimit limit
  let query ← Query.compile text
  reader.search query limit

end TokenSearch
