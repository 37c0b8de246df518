import TokenSearch.Index.Reader
import TokenSearch.Lexer.Tokenize
import TokenSearch.Logging.Level

namespace TokenSearch

/-! Building an index from source files. Each file is lexed on its own, or takes its tokens from an
earlier index if it did not change; the files that could be lexed are then numbered in the order of
their paths. -/

structure BuildResult where
  index : Index
  reused : Nat
  skipped : List SkippedFile
deriving Repr

namespace Build

def lexFailed : String := "lex_error"

def logger : String := "looker.search.builder"

/-- Where a file's tokens come from. Rows whose values are of another kind than those of a token have no
place in an index here: the file is lexed once more, and still counts as found. -/
inductive Reuse where
  | absent
  | unreadable (fault : Fault)
  | short
  | restated
  | found (tokens : List Token)
deriving Repr

/-- The entry of a path; of two entries with one path, the later one counts. -/
def entryOf? (reader : Reader) (path : String) : Option FileEntry :=
  reader.entries.reverse.find? (fun entry => entry.path = .text path)

/-- Takes the tokens of an unchanged file from an earlier index. A damaged index gives none. -/
def reuse (previous : Option Reader) (path : String) (fingerprint : Fingerprint) :
    Except Fault Reuse :=
  match previous with
  | none => .ok .absent
  | some reader =>
      match entryOf? reader path with
      | none => .ok .absent
      | some entry =>
          if entry.isEquivalent fingerprint then
            match reader.window entry.id 0 entry.tokenCount.ceiling with
            | .ok tokens =>
                if entry.tokenCount.agrees (.integer tokens.length) then
                  match tokens.mapM SeenToken.token? with
                  | some found => .ok (.found found)
                  | none => .ok .restated
                else .ok .short
            | .error (.indexCorrupt path cause) => .ok (.unreadable (.indexCorrupt path cause))
            | .error (.indexIo path cause) => .ok (.unreadable (.indexIo path cause))
            | .error fault => .error fault
          else .ok .absent

/-- A file with its fingerprint and its tokens, or why it has none. -/
structure Outcome where
  source : SourceFile
  fingerprint : Fingerprint
  reuse : Reuse
  tokens : Except LexError (List Token)

def Outcome.isReused (outcome : Outcome) : Bool :=
  match outcome.reuse with
  | .found _ | .restated => true
  | _ => false

def outcome (previous : Option Reader) (source : SourceFile) : Except Fault Outcome := do
  let fingerprint := Fingerprint.ofContent source.content source.modified
  let reuse ← reuse previous source.path fingerprint
  let tokens := match reuse with
    | .found tokens => .ok tokens
    | _ => (Lexer.tokenize source.content).mapError (fun error => error.withPath source.path)
  return ⟨source, fingerprint, reuse, tokens⟩

/-- The files that have tokens, numbered from `next` on. -/
def indexedFrom (next : Nat) : List Outcome → List IndexedFile
  | [] => []
  | outcome :: rest =>
      match outcome.tokens with
      | .ok tokens =>
          ⟨next, outcome.source.path, outcome.fingerprint, tokens, outcome.source.content⟩ ::
            indexedFrom (next + 1) rest
      | .error _ => indexedFrom next rest

/-- Where the identities of a file stand, if it has tokens. -/
def partitionOf (outcome : Outcome) : Option Partition :=
  match outcome.tokens with
  | .ok tokens => some (Partition.ofTokens tokens)
  | .error _ => none

def skippedOf (outcome : Outcome) : Option SkippedFile :=
  match outcome.tokens with
  | .ok _ => none
  | .error error =>
      some ⟨outcome.source.path, lexFailed, error.cause.message, some error.offset⟩

def resultOf (outcomes : List Outcome) : BuildResult :=
  ⟨⟨indexedFrom 0 outcomes, PostingMap.merge (outcomes.filterMap partitionOf)⟩,
    (outcomes.filter Outcome.isReused).length, outcomes.filterMap skippedOf⟩

/-- Refuses a path that stands twice; `seen` are the paths before. -/
def checkDistinct (seen : List String) : List SourceFile → Except Fault Unit
  | [] => .ok ()
  | source :: rest =>
      if source.path ∈ seen then .error (.duplicatePath source.path)
      else checkDistinct (source.path :: seen) rest

/-- The sources under their normal paths, in ascending order of these. -/
def order (sources : List SourceFile) : Except Fault (List SourceFile) := do
  let normal := sources.map (fun source => { source with path := normalizePath source.path })
  checkDistinct [] normal
  return normal.mergeSort (fun a b => decide (a.path ≤ b.path))

/-- What a worker says of one file. -/
def workerNote (outcome : Outcome) : Option Logging.Note :=
  match outcome.reuse with
  | .unreadable fault =>
      some ⟨.warning, logger, "Cannot reuse stored tokens for " ++ outcome.source.path ++
        ", re-lexing: " ++ fault.message⟩
  | .short =>
      some ⟨.debug, logger, "Stored stream for " ++ outcome.source.path ++ " is short; re-lexing"⟩
  | _ => none

def skipNote (outcome : Outcome) : Option Logging.Note :=
  match outcome.tokens with
  | .ok _ => none
  | .error error =>
      some ⟨.warning, logger, "Skipping " ++ outcome.source.path ++ ": " ++ error.message⟩

def summaryNote (result : BuildResult) : Logging.Note :=
  ⟨.info, logger, "Built index: " ++ toString result.index.fileCount ++ " files, " ++
    toString result.index.tokenCount ++ " tokens, " ++ toString result.reused ++ " reused, " ++
    toString result.skipped.length ++ " skipped"⟩

/-- What is said while an index is built: by the workers first, then by the one that collects. -/
structure Notes where
  workers : List Logging.Note
  collector : List Logging.Note
deriving Repr

def outcomes (previous : Option Reader) (sources : List SourceFile) :
    Except Fault (List Outcome) := do
  (← order sources).mapM (outcome previous)

def notesOf (outcomes : List Outcome) : Notes :=
  ⟨outcomes.filterMap workerNote,
    outcomes.filterMap skipNote ++ [summaryNote (resultOf outcomes)]⟩

end Build

/-- Builds an index of `sources`, with the tokens of unchanged files taken from `previous`. -/
def buildIndex (previous : Option Reader) (sources : List SourceFile) :
    Except Fault BuildResult := do
  return Build.resultOf (← Build.outcomes previous sources)

end TokenSearch
