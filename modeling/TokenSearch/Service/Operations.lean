import TokenSearch.Artifact.Store
import TokenSearch.Index.Build
import TokenSearch.Index.Validate
import TokenSearch.Search.Engine
import TokenSearch.Service.World

namespace TokenSearch.Service

/-! The three operations on the index of a root: build, search and audit. -/

def logger : String := "looker.service_layer.services"

def countOf (n : Nat) : Telemetry.Attribute := .integer n

structure BuildReport where
  root : Path
  indexPath : Path
  filesIndexed : Nat
  filesReused : Nat
  tokensIndexed : Nat
  skipped : List SkippedFile
deriving Repr

def BuildReport.status (report : BuildReport) : String :=
  if report.skipped.isEmpty then "ok" else "partial"

structure AuditReport where
  root : Path
  indexPath : Path
  filesIndexed : Nat
  tokensIndexed : Int
  created : Cell
  problems : List Disagreement
  stale : List String
  missing : List Cell
  new : List String
  skipped : List Artifact.SkippedRow
deriving Repr

namespace AuditReport

def needsRebuild (report : AuditReport) : Bool :=
  !(report.problems.isEmpty && report.stale.isEmpty && report.missing.isEmpty &&
    report.new.isEmpty)

def status (report : AuditReport) : String :=
  if !report.problems.isEmpty then "corrupt"
  else if report.needsRebuild then "stale"
  else "ok"

end AuditReport

def indexDir (settings : Settings) (root : Path) : Run Path := do
  Run.ofExcept (settings.indexDirOf (← get).home root)

/-- The source files under a root, found and not yet read. -/
def discover (settings : Settings) (root indexDir : Path) : Run (List Path) := do
  let disk := (← get).disk
  let excluded ← Run.ofExcept (Discovery.exclude disk indexDir)
  let found ← Run.ofExcept (Discovery.discover disk root
    ⟨settings.suffixes, settings.skippedNames, some excluded⟩)
  Run.notes found.notes
  return found.paths

/-- Whether a path leads to a directory. -/
def isDirectory (path : Path) : Run Bool := do
  Run.ofExcept (((← get).disk.isDir path).mapError .disk)

/-- Reads files; those that cannot be read or are larger than `limit` are reported. -/
def readFiles (root : Path) (limit : Int) (paths : List Path) : Run Discovery.Readings := do
  let disk := (← get).disk
  let outcomes ← paths.mapM (fun path => do
    let outcome ← Run.ofExcept (Discovery.readOne disk root limit path)
    match outcome with
    | .skipped file => Run.note (Discovery.skipNote file)
    | .source _ => pure ()
    return outcome)
  return .ofOutcomes outcomes

/-- Finds and reads the source files under a root. -/
def gather (settings : Settings) (root indexDir : Path) : Run Discovery.Readings := do
  if ← isDirectory root then
    let paths ← discover settings root indexDir
    readFiles root settings.maxFileBytes paths
  else throw (.indexIo root .rootNotDirectory)

/-- The installed artifact as a source of tokens, if it is usable. -/
def openPrevious (store : Store) : Run (Option Artifact.Stored) := do
  match store.load (← get).disk with
  | .ok stored => return some stored
  | .error (.indexMissing _) => return none
  | .error (.indexCorrupt path cause) =>
      Run.note ⟨.warning, logger,
        "Ignoring unusable previous index: " ++ (Fault.indexCorrupt path cause).message⟩
      return none
  | .error fault => throw fault

/-- The readings of an opened artifact by those who open it anew. -/
def freshReader (disk : Disk) (stored : Artifact.Stored) : Reader :=
  stored.reader (Store.contentAt disk stored.path)

/-- Builds an index and logs what is said on the way. -/
def buildLogged (previous : Option Reader) (sources : List SourceFile) : Run BuildResult := do
  let outcomes ← Run.ofExcept (Build.outcomes previous sources)
  let notes := Build.notesOf outcomes
  Run.workerNotes notes.workers
  Run.notes notes.collector
  return Build.resultOf outcomes

/-- Saves an index and logs it. -/
def saveLogged (store : Store) (index : Index) (skipped : List SkippedFile)
    (root : Text.RawText) : Run Path := do
  let chance := (← get).chance
  let path ← Run.changeDisk (fun disk =>
    store.save disk index skipped ⟨root, chance.created, chance.nonce⟩)
  Run.note (Store.savedNote index path)
  return path

def byPath (skipped : List SkippedFile) : List SkippedFile :=
  skipped.mergeSort (fun a b => decide (a.path ≤ b.path))

def countBuild (files : Nat) (skipped : List SkippedFile) (metrics : Telemetry.Metrics) :
    Telemetry.Metrics :=
  { metrics with
    filesIndexed := metrics.filesIndexed + files
    filesSkipped := skipped.foldl (fun counts file =>
      Telemetry.Metrics.increment counts file.reason) metrics.filesSkipped
    indexFiles := files }

/-- The work of a build inside its span. -/
def buildInstalled (settings : Settings) (root indexDir : Path)
    (sources : Option (List SourceFile)) : Run BuildReport := do
  let readings ← match sources with
    | some given => pure ⟨given, []⟩
    | none => gather settings root indexDir
  let store : Store := ⟨indexDir⟩
  let previous ← openPrevious store
  let disk := (← get).disk
  let result ← buildLogged (previous.map (freshReader disk)) readings.sources
  let skipped := byPath (readings.skipped ++ result.skipped)
  let path ← saveLogged store result.index skipped root.text
  Run.count (countBuild result.index.fileCount skipped)
  return {
    root
    indexPath := path
    filesIndexed := result.index.fileCount
    filesReused := result.reused
    tokensIndexed := result.index.tokenCount
    skipped }

def buildNote (report : BuildReport) (elapsed : String) : Logging.Note :=
  ⟨.info, logger, "Indexed " ++ toString report.filesIndexed ++ " files (" ++
    toString report.filesReused ++ " reused, " ++ toString report.skipped.length ++ " skipped, " ++
    toString report.tokensIndexed ++ " tokens) under " ++ report.root.text ++ " in " ++
    elapsed ++ "s"⟩

/-- Indexes the files under `root`, or the given ones, and installs the index. -/
def build (settings : Settings) (root : Path) (sources : Option (List SourceFile)) :
    Run BuildReport := do
  let indexDir ← indexDir settings root
  Run.bindRoot root
  let report ← Run.traced "build" [("root", .text root.text)] do
    let report ← Run.finally_ (buildInstalled settings root indexDir sources)
      (Run.count (fun metrics => { metrics with builds := metrics.builds + 1 }))
    return (report, [("files_indexed", countOf report.filesIndexed),
      ("files_skipped", countOf report.skipped.length),
      ("tokens_indexed", countOf report.tokensIndexed)])
  Run.note (buildNote report (← get).chance.elapsedShort)
  return report

def searchNote (response : Response) (elapsed : String) : Logging.Note :=
  ⟨.debug, "looker.search.engine", "Query " ++ Text.Quoted.text response.query ++ ": " ++
    toString response.stats.candidates ++ " candidates, " ++ toString response.stats.matches_ ++
    " matches in " ++ toString response.stats.files ++ " files (" ++ elapsed ++ "s)"⟩

/-- Searches and logs the counts. -/
def searchLogged (result : Except Fault Response) : Run Response := do
  let response ← Run.ofExcept result
  Run.note (searchNote response (← get).chance.elapsedLong)
  return response

/-- The work of a search inside its span. The query is looked at before the artifact. -/
def searchInstalled (store : Store) (text : Text.RawText) (limit : Option Int) : Run Response := do
  let query ← Run.ofExcept (Query.compile text)
  let disk := (← get).disk
  let stored ← Run.ofExcept (store.load disk)
  Run.count (fun metrics => { metrics with indexFiles := stored.entries.length })
  searchLogged ((freshReader disk stored).search query limit)

/-- Counts a fault that the search announces. -/
def countFault (body : Run α) : Run α := do
  match ← ExceptT.lift (ExceptT.run body) with
  | .ok a => return a
  | .error fault =>
      if fault.isAnnounced then
        Run.count (fun metrics => { metrics with
          searchErrors := Telemetry.Metrics.increment metrics.searchErrors fault.label })
      throw fault

/-- A limit must not be negative. -/
def checkLimit : Option Int → Except Fault Unit
  | some limit => if limit < 0 then .error (.negativeLimit limit) else .ok ()
  | none => .ok ()

/-- Searches the index of `root`. A limit that is given wins over that of the settings. -/
def search (settings : Settings) (root : Path) (text : Text.RawText) (limit : Option Int) :
    Run Response := do
  Run.ofExcept (checkLimit limit)
  let indexDir ← indexDir settings root
  let limit := match limit with
    | some limit => some limit
    | none => settings.limit
  Run.bindRoot root
  Run.traced "search" [("root", .text root.text), ("query", .text text)] do
    let response ← Run.finally_ (countFault (searchInstalled ⟨indexDir⟩ text limit))
      (Run.count (fun metrics => { metrics with searches := metrics.searches + 1 }))
    return (response, [("matches", countOf response.stats.matches_),
      ("files_matched", countOf response.stats.files)])

/-- The fingerprints of the files now on disk; a file that cannot be read has none. -/
def fingerprints (settings : Settings) (root indexDir : Path) :
    Run (List (String × Fingerprint)) := do
  let disk := (← get).disk
  if ← isDirectory root then
    let paths ← discover settings root indexDir
    let read := paths.map (fun path => (Discovery.relativeName root path, disk.read path))
    Run.notes (read.filterMap (fun (name, result) =>
      match result with
      | .ok _ => none
      | .error error =>
          some ⟨.warning, logger, "Cannot fingerprint " ++ name ++ ": " ++ error.message⟩))
    return read.filterMap (fun (name, result) =>
      match result with
      | .ok content => some (name, Fingerprint.ofContent content none)
      | .error _ => none)
  else return []

/-- What an audit compares: the files of the index and those on disk. -/
structure Comparison where
  stale : List String
  missing : List Cell
  new : List String
deriving DecidableEq, Repr

def compare (stored : List FileEntry) (skipped : List Artifact.SkippedRow)
    (onDisk : List (String × Fingerprint)) : Comparison where
  stale := (onDisk.filter (fun (path, fingerprint) =>
    match stored.reverse.find? (fun entry => entry.path = .text path) with
    | some entry => !entry.isEquivalent fingerprint
    | none => false)).map Prod.fst
  missing := (stored.filter (fun entry =>
    !onDisk.any (fun (path, _) => entry.path = .text path))).map FileEntry.path
  new := (onDisk.filter (fun (path, _) =>
    !stored.any (fun entry => entry.path = .text path) &&
      !skipped.any (fun row => row.path = .text path))).map Prod.fst

/-- The work of an audit inside its span. -/
def auditInstalled (settings : Settings) (root indexDir : Path) : Run AuditReport := do
  let store : Store := ⟨indexDir⟩
  let disk := (← get).disk
  let stored ← Run.ofExcept (store.load disk)
  let problems ← Run.ofExcept (freshReader disk stored).validate
  let content ← Run.ofExcept (Store.contentAt disk stored.path)
  let skipped ← Run.ofExcept (stored.skippedFiles content)
  let tokensIndexed ← Run.ofExcept stored.tokenCount
  let onDisk ← fingerprints settings root indexDir
  let comparison := compare stored.entries skipped onDisk
  return {
    root
    indexPath := store.path
    filesIndexed := stored.entries.length
    tokensIndexed
    created := stored.created
    problems
    stale := comparison.stale
    missing := comparison.missing
    new := comparison.new
    skipped }

def auditNote (report : AuditReport) : Option Logging.Note :=
  if !report.problems.isEmpty then
    some ⟨.warning, logger, "Index at " ++ report.indexPath.text ++ " has " ++
      toString report.problems.length ++ " consistency problems"⟩
  else if report.needsRebuild then
    some ⟨.info, logger, "Index at " ++ report.indexPath.text ++ " is stale: " ++
      toString report.stale.length ++ " changed, " ++ toString report.missing.length ++
      " missing, " ++ toString report.new.length ++ " new"⟩
  else none

/-- Checks the index of `root` and compares it with the files on disk. -/
def audit (settings : Settings) (root : Path) : Run AuditReport := do
  let indexDir ← indexDir settings root
  Run.bindRoot root
  let report ← Run.traced "audit" [("root", .text root.text)] do
    let report ← auditInstalled settings root indexDir
    return (report, [("audit_status", .text (.ofString report.status))])
  Run.notes (auditNote report).toList
  return report

end TokenSearch.Service
