import TokenSearch.Data.Assoc
import TokenSearch.Fingerprint
import TokenSearch.Table.Cell
import TokenSearch.Token

namespace TokenSearch

/-! The files of an index, and for each identity the places where it stands. -/

/-- A file to be indexed. -/
structure SourceFile where
  path : String
  content : Bytes
  modified : Option Int
deriving DecidableEq, Repr, Inhabited

/-- What a file table tells of a file. A stored table may hold values of any kind. -/
structure FileEntry where
  id : Int
  path : Cell
  size : Cell
  sha256 : Cell
  modified : Cell
  tokenCount : Cell
deriving DecidableEq, Repr, Inhabited

/-- Whether an entry tells of content with this fingerprint; the time of change does not count. -/
def FileEntry.isEquivalent (entry : FileEntry) (fingerprint : Fingerprint) : Bool :=
  entry.size.agrees (.integer fingerprint.size) && entry.sha256 = .text fingerprint.sha256

structure IndexedFile where
  id : Int
  path : String
  fingerprint : Fingerprint
  tokens : List Token
  source : Bytes
deriving DecidableEq, Repr, Inhabited

def IndexedFile.entry (file : IndexedFile) : FileEntry where
  id := file.id
  path := .text file.path
  size := .integer file.fingerprint.size
  sha256 := .text file.fingerprint.sha256
  modified := .ofInteger? file.fingerprint.modified
  tokenCount := .integer file.tokens.length

/-- A file that was left out, and why. -/
structure SkippedFile where
  path : String
  reason : String
  message : String
  offset : Option Int
deriving DecidableEq, Repr, Inhabited

/-- A place where an identity stands: a file and a place in its token stream. -/
structure Posting where
  file : Int
  token : Int
deriving DecidableEq, Repr, Inhabited

/-- By file, then by place. -/
def Posting.before (a b : Posting) : Bool :=
  a.file < b.file || (a.file = b.file && a.token < b.token)

abbrev PostingMap := Data.Assoc Identity (List Posting)

structure Index where
  files : List IndexedFile
  postings : PostingMap
deriving Repr, Inhabited

namespace Index

def entries (index : Index) : List FileEntry := index.files.map IndexedFile.entry

def fileCount (index : Index) : Nat := index.files.length

def tokenCount (index : Index) : Nat :=
  index.files.foldr (fun file total => file.tokens.length + total) 0

def postingsOf (index : Index) (identity : Identity) : List Posting :=
  Data.Assoc.listOf index.postings identity

/-- All identities that have a posting list, in the order of listings. -/
def identities (index : Index) : List Identity :=
  (Data.Assoc.keys index.postings).mergeSort Identity.precedes

def summary (index : Index) : String :=
  "CodeIndex(files=" ++ toString index.files.length ++ ", identities=" ++
    toString index.postings.length ++ ")"

end Index

/-- The places of the tokens of `file` whose identity is `identity`; the first token stands at
`place`. -/
def positionsFrom (file : Int) (identity : Identity) (place : Nat) : List Token → List Posting
  | [] => []
  | token :: rest =>
      if token.identity = identity then
        ⟨file, place⟩ :: positionsFrom file identity (place + 1) rest
      else positionsFrom file identity (place + 1) rest

def IndexedFile.positions (file : IndexedFile) (identity : Identity) : List Posting :=
  positionsFrom file.id identity 0 file.tokens

/-- The members of a list at their first occurrence; those in `seen` are left out. -/
def distinctFrom {α : Type} [DecidableEq α] (seen : List α) : List α → List α
  | [] => []
  | a :: rest => if a ∈ seen then distinctFrom seen rest else a :: distinctFrom (a :: seen) rest

/-- For each identity of a token stream the places where it stands. -/
abbrev Partition := Data.Assoc Identity (List Nat)

def Partition.ofTokens (tokens : List Token) : Partition :=
  Data.Assoc.gather (tokens.zipIdx.map (fun (token, place) => (token.identity, [place])))

/-- The lists of a partition as places in the file `file`. -/
def Partition.postings (partition : Partition) (file : Nat) : List (Identity × List Posting) :=
  partition.map (fun (identity, places) =>
    (identity, places.map (fun (place : Nat) => ⟨file, place⟩)))

/-- Merges the partitions of files, which are numbered from zero on, and sorts the posting lists. -/
def PostingMap.merge (partitions : List Partition) : PostingMap :=
  let merged := Data.Assoc.gather
    (partitions.zipIdx.flatMap (fun (partition, file) => partition.postings file))
  merged.map (fun (identity, postings) =>
    (identity, postings.mergeSort (fun a b => !Posting.before b a)))

/-- The posting lists of the files `files`: every identity once, in the order of first occurrence,
with all its places. -/
def PostingMap.ofFiles (files : List IndexedFile) : PostingMap :=
  let identities := files.flatMap (fun file => file.tokens.map Token.identity)
  (distinctFrom [] identities).map (fun identity =>
    (identity, files.flatMap (fun file => file.positions identity)))

end TokenSearch
