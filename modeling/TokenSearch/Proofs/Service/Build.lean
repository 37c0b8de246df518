import TokenSearch.Proofs.Data.Result
import TokenSearch.Proofs.Service.Calm

namespace TokenSearch.Service

/-! What a build does to the disk: it reads, and then saves once. -/

/-- The sources of a build: those that were given, or those that are found under the root. -/
def reads (settings : Settings) (root directory : Path) (sources : Option (List SourceFile)) :
    Run Discovery.Readings :=
  match sources with
  | some given => pure ⟨given, []⟩
  | none => gather settings root directory

theorem calm_reads (settings : Settings) (root directory : Path)
    (sources : Option (List SourceFile)) : Run.Calm (reads settings root directory sources) := by
  cases sources with
  | some given => exact .pure _
  | none => exact .gather settings root directory

def reportOf (root path : Path) (readings : Discovery.Readings) (result : BuildResult) :
    BuildReport where
  root := root
  indexPath := path
  filesIndexed := result.index.fileCount
  filesReused := result.reused
  tokensIndexed := result.index.tokenCount
  skipped := byPath (readings.skipped ++ result.skipped)

def saveResult (store : Store) (root : Path) (readings : Discovery.Readings) (result : BuildResult)
    (world : World) : Except Fault Path × Disk :=
  store.save world.disk result.index (byPath (readings.skipped ++ result.skipped))
    ⟨root.text, world.chance.created, world.chance.nonce⟩

/-- What a build with logging returns is what the builder returns. -/
theorem result_buildLogged (previous : Option Reader) (sources : List SourceFile) (world : World) :
    ((buildLogged previous sources).run world).1 = buildIndex previous sources := by
  unfold buildLogged buildIndex
  cases Build.outcomes previous sources with
  | error fault => rfl
  | ok outcomes =>
      have say (note : Logging.Note) (world : World) :
          ∃ after, (modify (fun world => world.log none note) : Run Unit).run world =
            (.ok (), after) := ⟨_, rfl⟩
      have tell (note : Logging.Note) (world : World) :
          ∃ after, (Run.note note).run world = (.ok (), after) := ⟨_, rfl⟩
      obtain ⟨next, workers⟩ := Run.forM_run say (Build.notesOf outcomes).workers world
      obtain ⟨after, collector⟩ := Run.forM_run tell (Build.notesOf outcomes).collector next
      have first : (Run.workerNotes (Build.notesOf outcomes).workers).run world = (.ok (), next) :=
        workers
      have second : (Run.notes (Build.notesOf outcomes).collector).run next = (.ok (), after) :=
        collector
      change ((Run.workerNotes _ >>= _).run world).1 = _
      rw [Run.bind_of_ok first, Run.bind_of_ok second]
      rfl

theorem run_saveLogged {store : Store} {index : Index} {skipped : List SkippedFile}
    {root : Text.RawText} {world : World} {outcome : Except Fault Path} {disk : Disk}
    (saved : store.save world.disk index skipped
      ⟨root, world.chance.created, world.chance.nonce⟩ = (outcome, disk)) :
    ∃ after : World, after.disk = disk ∧
      (saveLogged store index skipped root).run world = (outcome, after) := by
  have changed := Run.changeDisk_run (fun disk => store.save disk index skipped
    ⟨root, world.chance.created, world.chance.nonce⟩) saved
  rw [saveLogged, Run.get_bind_run]
  simp only
  cases outcome with
  | ok path =>
      rw [Run.bind_of_ok changed]
      exact ⟨_, rfl, rfl⟩
  | error fault =>
      rw [Run.bind_of_error changed]
      exact ⟨_, rfl, rfl⟩

/-- What a build is about to save, if it comes that far. -/
def prepared (settings : Settings) (root : Path) (store : Store) (sources : Option (List SourceFile))
    (world : World) : Except Fault (Discovery.Readings × BuildResult) := do
  let readings ← ((reads settings root store.directory sources).run world).1
  let previous ← ((openPrevious store).run world).1
  let result ← buildIndex (previous.map (freshReader world.disk)) readings.sources
  .ok (readings, result)

/-- What a build returns, and the disk that it leaves. Notes, counts and spans are left out. -/
def outcomeOf (root : Path) (store : Store) (world : World) :
    Except Fault (Discovery.Readings × BuildResult) → Except Fault BuildReport × Disk
  | .error fault => (.error fault, world.disk)
  | .ok (readings, result) =>
      ((saveResult store root readings result world).1.map
          (fun path => reportOf root path readings result),
        (saveResult store root readings result world).2)

/-- The work of a build saves what was prepared, or fails before it touches the disk. -/
theorem run_buildInstalled (settings : Settings) (root : Path) (store : Store)
    (sources : Option (List SourceFile)) (world : World) :
    ∃ after : World,
      after.disk = (outcomeOf root store world (prepared settings root store sources world)).2 ∧
      (buildInstalled settings root store.directory sources).run world =
        ((outcomeOf root store world (prepared settings root store sources world)).1, after) := by
  have split : buildInstalled settings root store.directory sources =
      reads settings root store.directory sources >>= fun readings => do
        let previous ← openPrevious store
        let disk := (← get).disk
        let result ← buildLogged (previous.map (freshReader disk)) readings.sources
        let skipped := byPath (readings.skipped ++ result.skipped)
        let path ← saveLogged store result.index skipped root.text
        Run.count (countBuild result.index.fileCount skipped)
        return reportOf root path readings result := by
    cases sources <;> rfl
  -- up to the save each step is calm, so the next one still sees the disk and the chance of `world`
  obtain ⟨first, disk, chance, ran⟩ := (calm_reads settings root store.directory sources).run
    (rfl : world.disk = world.disk) rfl
  rw [split, prepared]
  cases found : ((reads settings root store.directory sources).run world).1 with
  | error fault =>
      rw [found] at ran
      exact ⟨first, disk, Run.bind_of_error ran⟩
  | ok readings =>
      rw [found] at ran
      rw [Run.bind_of_ok ran, Data.ok_bind]
      obtain ⟨second, disk, chance, ran⟩ := (Run.Calm.openPrevious store).run disk chance
      cases opened : ((openPrevious store).run world).1 with
      | error fault =>
          rw [opened] at ran
          exact ⟨second, disk, Run.bind_of_error ran⟩
      | ok previous =>
          rw [opened] at ran
          rw [Run.bind_of_ok ran, Data.ok_bind, Run.get_bind_run, disk]
          obtain ⟨third, disk, chance, ran⟩ := (Run.Calm.buildLogged
            (previous.map (freshReader world.disk)) readings.sources).run disk chance
          rw [result_buildLogged] at ran
          cases built : buildIndex (previous.map (freshReader world.disk)) readings.sources with
          | error fault =>
              rw [built] at ran
              exact ⟨third, disk, Run.bind_of_error ran⟩
          | ok result =>
              rw [built] at ran
              rw [Run.bind_of_ok ran, Data.ok_bind]
              cases saved : saveResult store root readings result world with
              | mk outcome left =>
                  have same := saved
                  rw [saveResult, ← disk, ← chance] at same
                  obtain ⟨fourth, disk, ran⟩ := run_saveLogged same
                  simp only [outcomeOf, saved]
                  cases outcome with
                  | error fault => exact ⟨fourth, disk, Run.bind_of_error ran⟩
                  | ok path =>
                      refine ⟨_, ?_, (Run.bind_of_ok ran).trans rfl⟩
                      exact disk

def inside (world : World) (root : Path) : World :=
  (world.bindRoot root.text).bindSpan world.chance.trace world.chance.span

def told (report : BuildReport) : Telemetry.Attributes :=
  [("files_indexed", countOf report.filesIndexed),
    ("files_skipped", countOf report.skipped.length),
    ("tokens_indexed", countOf report.tokensIndexed)]

theorem run_build {settings : Settings} {root directory : Path}
    {sources : Option (List SourceFile)} {world after : World} {outcome : Except Fault BuildReport}
    (placed : settings.indexDirOf world.home root = .ok directory)
    (ran : (buildInstalled settings root directory sources).run (inside world root) =
      (outcome, after)) :
    ∃ last : World, last.disk = after.disk ∧
      (build settings root sources).run world = (outcome, last) := by
  have asked : (indexDir settings root).run world = (.ok directory, world) := by
    change (Run.ofExcept (settings.indexDirOf world.home root)).run world = _
    rw [placed]
    rfl
  have bound : (Run.bindRoot root).run world = (.ok (), world.bindRoot root.text) := rfl
  rw [build, Run.bind_of_ok asked, Run.bind_of_ok bound]
  obtain ⟨counted, kept, count⟩ := Run.finally_run ran
    (fun metrics => { metrics with builds := metrics.builds + 1 })
  cases outcome with
  | error fault =>
      obtain ⟨last, disk, traced⟩ := Run.traced_run (world.bindRoot root.text)
        (Run.bind_of_error count)
      exact ⟨last, disk.trans kept, Run.bind_of_error traced⟩
  | ok report =>
      have body : (Run.finally_ (buildInstalled settings root directory sources)
          (Run.count (fun metrics => { metrics with builds := metrics.builds + 1 })) >>=
            fun report => pure (report, told report)).run (inside world root) =
          (.ok (report, told report), counted) := by
        rw [Run.bind_of_ok count]
        rfl
      obtain ⟨last, disk, traced⟩ := Run.traced_run (world.bindRoot root.text) body
      exact ⟨last.log (last.context.bind (fun context => context.root))
        (buildNote report last.chance.elapsedShort), disk.trans kept, (Run.bind_of_ok traced).trans rfl⟩

theorem of_openPrevious {store : Store} {world : World} {previous : Option Artifact.Stored}
    (opened : ((openPrevious store).run world).1 = .ok previous) :
    previous = none ∨ ∃ stored, previous = some stored ∧ store.load world.disk = .ok stored := by
  rw [openPrevious, Run.get_bind_run] at opened
  split at opened
  · rename_i stored loaded
    cases opened
    exact .inr ⟨stored, rfl, loaded⟩
  · cases opened
    exact .inl rfl
  · cases opened
    exact .inl rfl
  · cases opened

theorem openPrevious_of_load {store : Store} {world : World} {stored : Artifact.Stored}
    (loaded : store.load world.disk = .ok stored) :
    ((openPrevious store).run world).1 = .ok (some stored) := by
  rw [openPrevious, Run.get_bind_run, loaded]
  rfl

theorem openPrevious_of_missing {store : Store} {world : World} {path : Path}
    (missing : store.load world.disk = .error (.indexMissing path)) :
    ((openPrevious store).run world).1 = .ok none := by
  rw [openPrevious, Run.get_bind_run, missing]
  rfl

theorem openPrevious_of_corrupt {store : Store} {world : World} {path : Path}
    {cause : Corruption} (corrupt : store.load world.disk = .error (.indexCorrupt path cause)) :
    ((openPrevious store).run world).1 = .ok none := by
  rw [openPrevious, Run.get_bind_run, corrupt]
  rfl

/-- A build saves what was prepared, or fails before it touches the disk. -/
theorem build_eq {settings : Settings} {root : Path} {store : Store}
    {sources : Option (List SourceFile)} {world : World}
    (placed : settings.indexDirOf world.home root = .ok store.directory) :
    ∃ after : World,
      after.disk = (outcomeOf root store world (prepared settings root store sources world)).2 ∧
      (build settings root sources).run world =
        ((outcomeOf root store world (prepared settings root store sources world)).1, after) := by
  have same : (inside world root).disk = world.disk := rfl
  have ahead : prepared settings root store sources (inside world root) =
      prepared settings root store sources world := by
    rw [prepared, prepared, same, (calm_reads settings root store.directory sources).result _ _ same,
      (Run.Calm.openPrevious store).result _ _ same]
  have outcome (result : Except Fault (Discovery.Readings × BuildResult)) :
      outcomeOf root store (inside world root) result = outcomeOf root store world result := by
    cases result <;> rfl
  obtain ⟨after, disk, ran⟩ := run_buildInstalled settings root store sources (inside world root)
  rw [ahead, outcome] at disk ran
  obtain ⟨last, left, ran⟩ := run_build placed ran
  exact ⟨last, left.trans disk, ran⟩

/-- What was prepared comes from the sources, and from what was opened. -/
theorem prepared_eq_ok {settings : Settings} {root : Path} {store : Store}
    {sources : Option (List SourceFile)} {world : World} {readings : Discovery.Readings}
    {result : BuildResult} :
    prepared settings root store sources world = .ok (readings, result) ↔
      ((reads settings root store.directory sources).run world).1 = .ok readings ∧
      ∃ previous, ((openPrevious store).run world).1 = .ok previous ∧
        buildIndex (previous.map (freshReader world.disk)) readings.sources = .ok result := by
  unfold prepared
  constructor
  · intro returned
    obtain ⟨_, read, returned⟩ := Data.bind_eq_ok.mp returned
    obtain ⟨previous, opened, returned⟩ := Data.bind_eq_ok.mp returned
    obtain ⟨_, built, returned⟩ := Data.bind_eq_ok.mp returned
    cases returned
    exact ⟨read, previous, opened, built⟩
  · rintro ⟨read, previous, opened, built⟩
    rw [read, Data.ok_bind, opened, Data.ok_bind, built, Data.ok_bind]

end TokenSearch.Service
