import TokenSearch.Data.Slice
import TokenSearch.Fault
import TokenSearch.Index.Model

namespace TokenSearch

/-! What a search needs of an index, wherever the index is kept. -/

/-- The class of a name; other names are a fault. -/
def TokenKind.named (name : String) : Except Fault TokenKind :=
  match ofName? name with
  | some kind => .ok kind
  | none => .error (.noKind name)

/-- A place in a text, as a table tells it. -/
structure Spot where
  offset : Cell
  line : Cell
  column : Cell
deriving DecidableEq, Repr, Inhabited

def Position.spot (p : Position) : Spot :=
  ⟨.integer p.offset, .integer p.line, .integer p.column⟩

def Spot.position? (spot : Spot) : Option Position := do
  return ⟨← spot.offset.integer?, ← spot.line.integer?, ← spot.column.integer?⟩

/-- A token as a reader sees it. A stored table may hold values of any kind. -/
structure SeenToken where
  kind : TokenKind
  text : Cell
  start : Spot
  stop : Spot
deriving DecidableEq, Repr, Inhabited

def Token.seen (token : Token) : SeenToken :=
  ⟨token.kind, .text token.text, token.start.spot, token.stop.spot⟩

namespace SeenToken

/-- The token, if its values are a text and integers. -/
def token? (seen : SeenToken) : Option Token := do
  return ⟨seen.kind, ← seen.text.text?, ← seen.start.position?, ← seen.stop.position?⟩

def isOf (seen : SeenToken) (identity : Identity) : Bool :=
  seen.kind = identity.kind && seen.text = .text identity.text

end SeenToken

/-- An identity as a reader sees it. A stored table may hold texts of any kind. -/
structure SeenIdentity where
  kind : TokenKind
  text : Cell
deriving DecidableEq, Repr, Inhabited

def Identity.seen (identity : Identity) : SeenIdentity := ⟨identity.kind, .text identity.text⟩

def SeenToken.identity (seen : SeenToken) : SeenIdentity := ⟨seen.kind, seen.text⟩

/-- The identity, if its text is one. -/
def SeenIdentity.identity (seen : SeenIdentity) : Except Fault Identity :=
  match seen.text with
  | .text value => .ok ⟨seen.kind, value⟩
  | other => .error (.misfit (.notText other))

/-- How many tokens the files of a table hold together; what is no number cannot be added. -/
def totalTokens (entries : List FileEntry) : Except Fault Cell :=
  entries.foldlM (fun total entry =>
    match total.add? entry.tokenCount with
    | some sum => .ok sum
    | none => .error (.misfit (.sum total entry.tokenCount))) (.integer 0)

/-- An index as seen by those who read it. The file table is at hand; all else may fail. -/
structure Reader where
  entries : List FileEntry
  /-- The posting list of an identity; one that has no list stands nowhere. -/
  postingsOf : SeenIdentity → Except Fault (List Posting)
  /-- The identities in the order of listings. The listing as a whole may fail, or one member. -/
  identities : Except Fault (List (Except Fault SeenIdentity))
  /-- The tokens of a file from one place up to, and not including, another one. -/
  window : (file start stop : Int) → Except Fault (List SeenToken)
  source : (file : Int) → Except Fault Bytes
  /-- What a token window is. -/
  holder : Holder

namespace Reader

def fileCount (reader : Reader) : Nat := reader.entries.length

/-- A file that the table does not hold is a fault; a negative id counts from the end. -/
def entry (reader : Reader) (file : Int) : Except Fault FileEntry :=
  match Data.at? reader.entries file with
  | some entry => .ok entry
  | none => .error (.outOfRange .tuple)

/-- The places of an identity, as its posting list tells them. -/
def postings (reader : Reader) (identity : Identity) : Except Fault (List Posting) :=
  reader.postingsOf identity.seen

/-- All identities, if each can be listed and has a text. -/
def listIdentities (reader : Reader) : Except Fault (List Identity) := do
  let listed ← reader.identities
  (← listed.mapM id).mapM SeenIdentity.identity

/-- All posting lists in the order of listings. -/
def postingMap (reader : Reader) : Except Fault PostingMap := do
  let listed ← reader.identities
  let lists ← listed.mapM (fun member => do
    let identity ← member
    return (identity, ← reader.postingsOf identity))
  lists.mapM (fun (identity, postings) => do return (← identity.identity, postings))

end Reader

namespace Index

def file (index : Index) (id : Int) : Except Fault IndexedFile :=
  match Data.at? index.files id with
  | some file => .ok file
  | none => .error (.outOfRange .tuple)

/-- An index in memory, as a reader sees it. -/
def reader (index : Index) : Reader :=
  let rows := index.files.map (fun file => file.tokens.toArray)
  { entries := index.entries
    postingsOf := fun identity =>
      match identity.text with
      | .text text => .ok (index.postingsOf ⟨identity.kind, text⟩)
      | _ => .ok []
    identities := .ok (index.identities.map (fun identity => .ok identity.seen))
    window := fun file start stop =>
      match Data.at? rows file with
      | some row => .ok ((Data.sliceRow row start stop).map Token.seen)
      | none => .error (.outOfRange .tuple)
    source := fun file => do
      return (← index.file file).source
    holder := .tuple }

/-- Whether the ids count the files from `next` on. -/
def checkIds (next : Nat) : List IndexedFile → Except Fault Unit
  | [] => .ok ()
  | file :: rest =>
      if file.id = next then checkIds (next + 1) rest else .error (.sparseIds file.id next)

/-- An index from its parts; ids must count the files from zero on. -/
def ofParts (files : List IndexedFile) (postings : PostingMap) : Except Fault Index := do
  checkIds 0 files
  return ⟨files, postings⟩

end Index

end TokenSearch
