import Mathlib.Data.List.Dedup
import TokenSearch.Proofs.Artifact.Sound
import TokenSearch.Proofs.Search.Display

namespace TokenSearch

/-! A search shows what the matches of its query show one by one, and a limit only cuts the hits
short. The bytes of a file are kept from match to match, and files are counted by change of id. -/

open Data Search Text

/-- The response to a query that has these matches, with the hits that are shown of them. -/
def Response.of (query : Query) (candidates : Nat) (found : List Match) (hits : List Hit) :
    Response where
  query := query.text
  tokens := query.texts
  hits := hits
  stats := ⟨candidates, found.length, (found.map Match.file).dedup.length,
    hits.length < found.length⟩

namespace Search

/-- How often the file at hand changes. -/
def changes (file : Option Int) : List Int → Nat
  | [] => 0
  | next :: rest => (if file = some next then 0 else 1) + changes (some next) rest

namespace Progress

/-- What is told of a search that has come so far. -/
def told (p : Progress) : Nat × Nat × List Hit := (p.total, p.files, p.hits.reverse)

end Progress

end Search

namespace Reader

section Verified

variable {reader : Reader} {query : Query} {candidates : List Posting} {found : List Match}

end Verified

/-! What a match is shown by. -/

section Shown

variable {reader left right : Reader} {streams : List (List Token)} {query : Query} {shown : Match}

end Shown

end Reader

section Built

variable {previous : Option Reader} {sources : List SourceFile} {result : BuildResult}

end Built

end TokenSearch
