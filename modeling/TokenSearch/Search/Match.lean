import TokenSearch.Index.Reader
import TokenSearch.Query
import TokenSearch.Search.Window

namespace TokenSearch

/-- A run of tokens that equals a query: its file, its first and last token, and the lines that it
touches. -/
structure Match where
  file : Int
  first : Int
  last : Int
  startLine : Cell
  endLine : Cell
deriving DecidableEq, Repr, Inhabited

def Match.width (found : Match) : Int := found.last - found.first + 1

end TokenSearch

namespace TokenSearch.Search

/-! The matches of a query. Candidates are the places of its first token, and each is compared
token by token. -/

/-- What a search yields before it ends, and the fault that ends it. -/
structure Yield where
  found : List Match
  failure : Option Fault
deriving Repr

def Yield.append (left right : Yield) : Yield :=
  match left.failure with
  | some fault => ⟨left.found, some fault⟩
  | none => ⟨left.found ++ right.found, right.failure⟩

/-- All matches, if the search came to its end. -/
def Yield.complete (yield : Yield) : Except Fault (List Match) :=
  match yield.failure with
  | some fault => .error fault
  | none => .ok yield.found

/-- Consecutive postings of one file: the file and the places. -/
def group : List Posting → List (Int × List Int)
  | [] => []
  | posting :: rest =>
      match group rest with
      | (file, places) :: others =>
          if file = posting.file then (file, posting.token :: places) :: others
          else (posting.file, [posting.token]) :: (file, places) :: others
      | [] => [(posting.file, [posting.token])]

def leastLine (first : SeenToken) (rest : List SeenToken) : Cell :=
  rest.foldl (fun line token => if line.precedes token.start.line then line else token.start.line)
    first.start.line

/-- No token ends with a line feed, so the line behind it is the line of its last byte. -/
def greatestLine (first : SeenToken) (rest : List SeenToken) : Cell :=
  rest.foldl (fun line token => if token.stop.line.precedes line then line else token.stop.line)
    first.stop.line

/-- Whether tokens have the given identities, one by one. -/
def areOf : List SeenToken → List Identity → Bool
  | [], [] => true
  | token :: tokens, identity :: identities => token.isOf identity && areOf tokens identities
  | _, _ => false

/-- The match at place `start` of a file, if the tokens there are those of the query. -/
def matchAt (query : Query) (file start : Int) (tokens : List SeenToken) : Option Match :=
  match tokens with
  | [] => none
  | first :: rest =>
      if areOf tokens query.identities then
        some ⟨file, start, start + query.width - 1, leastLine first rest, greatestLine first rest⟩
      else none

/-- The matches among the candidates of one window, of which `tokens` are the tokens. -/
def matchesIn (query : Query) (file : Int) (window : Window) (tokens : List SeenToken) :
    List Match :=
  let row := tokens.toArray
  window.starts.filterMap (fun start =>
    let offset := start - window.first
    matchAt query file start (Data.sliceRow row offset (offset + query.width)))

def searchWindows (reader : Reader) (query : Query) (file : Int) : List Window → Yield
  | [] => ⟨[], none⟩
  | window :: rest =>
      match reader.window file window.first window.stop with
      | .error fault => ⟨[], some fault⟩
      | .ok tokens =>
          Yield.append ⟨matchesIn query file window tokens, none⟩
            (searchWindows reader query file rest)

/-- The matches of one file. A candidate too close to the end of the file is dropped. -/
def searchFile (reader : Reader) (query : Query) (file : Int) (places : List Int) : Yield :=
  match reader.entry file with
  | .error fault => ⟨[], some fault⟩
  | .ok entry =>
      let starts := places.filter (fun place =>
        (Cell.integer (place + query.width)).precedes entry.tokenCount)
      searchWindows reader query file (windows query.width starts)

def searchGroups (reader : Reader) (query : Query) : List (Int × List Int) → Yield
  | [] => ⟨[], none⟩
  | (file, places) :: rest =>
      (searchFile reader query file places).append (searchGroups reader query rest)

/-- The matches among the given candidates. -/
def verify (reader : Reader) (query : Query) (candidates : List Posting) : Yield :=
  searchGroups reader query (group candidates)

end TokenSearch.Search

namespace TokenSearch

/-- The places where a query may start. -/
def Reader.candidates (reader : Reader) (query : Query) : Except Fault (List Posting) :=
  reader.postings query.first.identity

/-- All matches of a query, by file and then by place. -/
def Reader.matches (reader : Reader) (query : Query) : Except Fault (List Match) := do
  let candidates ← reader.candidates query
  (Search.verify reader query candidates).complete

end TokenSearch
