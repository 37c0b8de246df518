import TokenSearch.Proofs.Discovery
import TokenSearch.Proofs.Index.Accounts
import TokenSearch.Proofs.Service.Build

namespace TokenSearch.Service

/-! What builds and audits see of the files under a root, and what an audit makes of it. Both find the
same files; a build leaves out those that are too large, and an audit takes all that can be read. -/

open Data

/-- The files that are found under a root. A root that is no directory has none. -/
def filesUnder (settings : Settings) (root directory : Path) (disk : Disk) :
    Except Fault (List Path) := do
  if ← (disk.isDir root).mapError .disk then
    let excluded ← Discovery.exclude disk directory
    let found ← Discovery.discover disk root ⟨settings.suffixes, settings.skippedNames, some excluded⟩
    .ok found.paths
  else .ok []

/-- The names and the contents of the files that can be read. -/
def readable (disk : Disk) (root : Path) (paths : List Path) : List (String × Bytes) :=
  paths.filterMap (fun path =>
    match disk.read path with
    | .ok content => some (Discovery.relativeName root path, content)
    | .error _ => none)

/-- The files that are found under a root and can be read. -/
def view (settings : Settings) (root directory : Path) (disk : Disk) :
    Except Fault (List (String × Bytes)) := do
  let paths ← filesUnder settings root directory disk
  .ok (readable disk root paths)

def printOf (file : String × Bytes) : String × Fingerprint := (file.1, .ofContent file.2 none)

variable {settings : Settings} {root directory : Path} {world : World}

theorem run_isDirectory (path : Path) (world : World) :
    (isDirectory path).run world = ((world.disk.isDir path).mapError .disk, world) := by
  rw [isDirectory, Run.get_bind_run]
  cases (world.disk.isDir path).mapError Fault.disk <;> rfl

theorem result_notes (notes : List Logging.Note) (world : World) :
    ((Run.notes notes).run world).1 = .ok () := by
  have tell (note : Logging.Note) (world : World) :
      ∃ after, (Run.note note).run world = (.ok (), after) := ⟨_, rfl⟩
  obtain ⟨after, said⟩ := Run.forM_run tell notes world
  exact congrArg Prod.fst said

theorem result_notes_pure {α : Type} (notes : List Logging.Note) (a : α) (world : World) :
    ((Run.notes notes >>= fun _ => pure a : Run α).run world).1 = .ok a := by
  rw [(Run.Calm.notes notes).result_bind (fun _ _ _ => rfl), result_notes]
  rfl

theorem result_discover (settings : Settings) (root directory : Path) (world : World) :
    ((discover settings root directory).run world).1 = (do
      let excluded ← Discovery.exclude world.disk directory
      let found ← Discovery.discover world.disk root
        ⟨settings.suffixes, settings.skippedNames, some excluded⟩
      .ok found.paths) := by
  rw [discover, Run.get_bind_run]
  refine Run.result_ofExcept_bind (fun excluded => ?_)
  refine Run.result_ofExcept_bind (fun found => ?_)
  exact result_notes_pure found.notes found.paths world

theorem printed_eq (disk : Disk) (root : Path) (paths : List Path) :
    (paths.map (fun path => (Discovery.relativeName root path, disk.read path))).filterMap
        (fun (name, result) =>
          match result with
          | .ok content => some (name, Fingerprint.ofContent content none)
          | .error _ => none) =
      (readable disk root paths).map printOf := by
  rw [List.filterMap_map, readable, List.map_filterMap]
  apply List.filterMap_congr
  intro path _
  simp only [Function.comp_apply]
  cases disk.read path <;> rfl

theorem result_fingerprints (settings : Settings) (root directory : Path) (world : World) :
    ((fingerprints settings root directory).run world).1 =
      (view settings root directory world.disk).map (List.map printOf) := by
  have asked := run_isDirectory root world
  rw [fingerprints, Run.get_bind_run, view, filesUnder]
  cases told : (world.disk.isDir root).mapError Fault.disk with
  | error fault =>
      rw [told] at asked
      rw [Run.bind_of_error asked]
      rfl
  | ok isDir =>
      rw [told] at asked
      rw [Run.bind_of_ok asked, ok_bind]
      cases isDir with
      | false => rfl
      | true =>
          rw [if_pos rfl]
          refine ((Run.Calm.discover settings root directory).result_bind
            (fun paths other _ => result_notes_pure _ _ other)).trans ?_
          rw [result_discover]
          simp only [if_true]
          cases Discovery.exclude world.disk directory with
          | error fault => rfl
          | ok excluded =>
              simp only [ok_bind]
              cases Discovery.discover world.disk root
                ⟨settings.suffixes, settings.skippedNames, some excluded⟩ with
              | error fault => rfl
              | ok found => exact congrArg Except.ok (printed_eq world.disk root found.paths)

/-- Reading one file, with a note if it is skipped. -/
def readNoted (disk : Disk) (root : Path) (limit : Int) (path : Path) : Run Discovery.Reading := do
  let outcome ← Run.ofExcept (Discovery.readOne disk root limit path)
  match outcome with
  | .skipped file => Run.note (Discovery.skipNote file)
  | .source _ => pure ()
  return outcome

theorem calm_readNoted (disk : Disk) (root : Path) (limit : Int) (path : Path) :
    Run.Calm (readNoted disk root limit path) := by
  refine (Run.Calm.ofExcept _).bind (fun outcome => ?_)
  cases outcome with
  | skipped file => exact (Run.Calm.note _).bind (fun _ => .pure _)
  | source file => exact .pure _

theorem result_readNoted (disk : Disk) (root : Path) (limit : Int) (path : Path) (world : World) :
    ((readNoted disk root limit path).run world).1 = Discovery.readOne disk root limit path := by
  rw [readNoted]
  cases Discovery.readOne disk root limit path with
  | error fault => rfl
  | ok outcome => cases outcome <;> rfl

theorem result_readFiles (root : Path) (limit : Int) (paths : List Path) (world : World) :
    ((readFiles root limit paths).run world).1 = (do
      let outcomes ← paths.mapM (Discovery.readOne world.disk root limit)
      .ok (.ofOutcomes outcomes)) := by
  have noted : readFiles root limit paths = (do
      let disk := (← get).disk
      let outcomes ← paths.mapM (readNoted disk root limit)
      return .ofOutcomes outcomes) := rfl
  have calm := calm_readNoted world.disk root limit
  rw [noted, Run.get_bind_run]
  refine ((Run.Calm.mapM calm paths).result_bind (fun _ _ _ => rfl)).trans ?_
  rw [Run.Calm.result_mapM calm (fun path other _ => result_readNoted _ root limit path other)]

theorem result_gather (settings : Settings) (root directory : Path) (world : World) :
    ((gather settings root directory).run world).1 = (do
      if ← (world.disk.isDir root).mapError .disk then
        let paths ← filesUnder settings root directory world.disk
        let outcomes ← paths.mapM (Discovery.readOne world.disk root settings.maxFileBytes)
        .ok (.ofOutcomes outcomes)
      else .error (.indexIo root .rootNotDirectory)) := by
  have asked := run_isDirectory root world
  rw [gather, filesUnder]
  cases told : (world.disk.isDir root).mapError Fault.disk with
  | error fault =>
      rw [told] at asked
      rw [Run.bind_of_error asked]
      rfl
  | ok isDir =>
      rw [told] at asked
      rw [Run.bind_of_ok asked]
      cases isDir with
      | false => rfl
      | true =>
          rw [if_pos rfl, (Run.Calm.discover settings root directory).result_bind
            (fun paths other same => (result_readFiles root settings.maxFileBytes paths other).trans
              (by rw [same])), result_discover]
          rfl

/-- The sources of a build that finds its files itself. -/
theorem gather_eq_ok {readings : Discovery.Readings} :
    ((gather settings root directory).run world).1 = .ok readings ↔
      world.disk.isDir root = .ok true ∧ ∃ paths outcomes,
        filesUnder settings root directory world.disk = .ok paths ∧
        paths.mapM (Discovery.readOne world.disk root settings.maxFileBytes) = .ok outcomes ∧
        readings = .ofOutcomes outcomes := by
  rw [result_gather]
  constructor
  · intro gathered
    obtain ⟨isDir, told, gathered⟩ := bind_eq_ok.mp gathered
    cases isDir with
    | false => cases gathered
    | true =>
        obtain ⟨paths, found, gathered⟩ := bind_eq_ok.mp gathered
        obtain ⟨outcomes, looked, gathered⟩ := bind_eq_ok.mp gathered
        cases gathered
        exact ⟨mapError_eq_ok.mp told, paths, outcomes, found, looked, rfl⟩
  · rintro ⟨told, paths, outcomes, found, looked, rfl⟩
    rw [told, ok_mapError, ok_bind, if_pos rfl, found, ok_bind, looked]
    rfl

/-- The directories of a disk have proper names in them, and the names of the files that are found
under a root are text. -/
structure WellNamed (settings : Settings) (root directory : Path) (disk : Disk) : Prop where
  proper : disk.root.Names Path.IsPart
  told : ∀ paths, filesUnder settings root directory disk = .ok paths → Discovery.Told root paths

theorem WellNamed.listed {disk : Disk} {paths : List Path} (wellNamed : WellNamed settings root directory disk)
    (found : filesUnder settings root directory disk = .ok paths) :
    Discovery.Listed disk root paths := by
  have told := wellNamed.told paths found
  obtain ⟨isDir, _, found⟩ := bind_eq_ok.mp found
  cases isDir with
  | false =>
      cases found
      exact .none disk root
  | true =>
      obtain ⟨_, _, found⟩ := bind_eq_ok.mp found
      obtain ⟨_, discovered, found⟩ := bind_eq_ok.mp found
      cases found
      exact Discovery.listed_of_discover wellNamed.proper discovered told

theorem mem_readable {disk : Disk} {paths : List Path} {name : String} {content : Bytes} :
    (name, content) ∈ readable disk root paths ↔
      ∃ path ∈ paths, Discovery.relativeName root path = name ∧ disk.read path = .ok content := by
  rw [readable, List.mem_filterMap]
  apply exists_congr
  intro path
  cases disk.read path <;> simp

theorem names_readable (disk : Disk) (root : Path) (paths : List Path) :
    ((readable disk root paths).map Prod.fst).Sublist
      (paths.map (Discovery.relativeName root)) := by
  rw [readable, List.map_filterMap, ← List.filterMap_eq_map]
  induction paths with
  | nil => exact .slnil
  | cons path rest ih =>
      rw [List.filterMap_cons, List.filterMap_cons]
      cases disk.read path with
      | error error => exact .cons _ ih
      | ok content => exact .cons_cons _ ih

/-- Files with names in normal form. Their names ascend. -/
structure Named (files : List (String × Bytes)) : Prop where
  normal : ∀ file ∈ files, normalizePath file.1 = file.1
  ascending : (files.map Prod.fst).Pairwise (· < ·)

theorem WellNamed.named {disk : Disk} {files : List (String × Bytes)}
    (wellNamed : WellNamed settings root directory disk)
    (seen : view settings root directory disk = .ok files) : Named files := by
  obtain ⟨paths, found, seen⟩ := bind_eq_ok.mp seen
  cases seen
  have listed := wellNamed.listed found
  refine ⟨?_, listed.ascending.sublist (names_readable disk root paths)⟩
  intro file member
  obtain ⟨path, inside, named, _⟩ := mem_readable.mp member
  rw [← named]
  exact listed.normal path inside

theorem Named.content_eq {files : List (String × Bytes)} (named : Named files) {name : String}
    {content other : Bytes} (first : (name, content) ∈ files) (second : (name, other) ∈ files) :
    content = other := by
  have distinct := nodup_of_ascending named.ascending
  exact congrArg Prod.snd (List.inj_on_of_nodup_map distinct first second rfl)

/-- The sources of a build are the files that can be read and are not too large. -/
structure Takes (limit : Int) (readings : Discovery.Readings) (files : List (String × Bytes)) :
    Prop where
  sources : ∀ source ∈ readings.sources, (source.path, source.content) ∈ files
  small : ∀ source ∈ readings.sources, source.content.length ≤ limit
  files : ∀ file ∈ files, (∃ source ∈ readings.sources, source.path = file.1) ∨
    limit < file.2.length ∧ ∃ left ∈ readings.skipped, left.path = file.1
  unplaced : ∀ left ∈ readings.skipped, left.offset = none

theorem takes_of_outcomes {disk : Disk} {limit : Int} {paths : List Path}
    {outcomes : List Discovery.Reading}
    (looked : paths.mapM (Discovery.readOne disk root limit) = .ok outcomes) :
    Takes limit (.ofOutcomes outcomes) (readable disk root paths) := by
  have taken {source : SourceFile}
      (member : source ∈ (Discovery.Readings.ofOutcomes outcomes).sources) :
      (source.path, source.content) ∈ readable disk root paths ∧ source.content.length ≤ limit := by
    obtain ⟨outcome, inside, same⟩ := List.mem_filterMap.mp member
    cases outcome with
    | skipped file => cases same
    | source file =>
        cases same
        obtain ⟨path, listed, read⟩ := (mem_of_mapM looked).mp inside
        rcases Discovery.readOne_cases read with ⟨content, modified, told, opened, small⟩ | ⟨_, left, _⟩
        · obtain rfl := Discovery.Reading.source.inj told
          exact ⟨mem_readable.mpr ⟨path, listed, rfl, opened⟩, small⟩
        · cases left
  refine ⟨fun source member => (taken member).1, fun source member => (taken member).2, ?_, ?_⟩
  · rintro ⟨name, content⟩ member
    obtain ⟨path, listed, rfl, opened⟩ := mem_readable.mp member
    obtain ⟨outcome, read⟩ := each_of_mapM looked path listed
    have inside := (mem_of_mapM looked).mpr ⟨path, listed, read⟩
    rcases Discovery.readOne_cases read with ⟨_, modified, rfl, _⟩ | ⟨file, rfl, same, _, large⟩
    · exact .inl ⟨_, List.mem_filterMap.mpr ⟨_, inside, rfl⟩, rfl⟩
    · exact .inr ⟨large content opened, file, List.mem_filterMap.mpr ⟨_, inside, rfl⟩, same⟩
  · intro left member
    obtain ⟨outcome, inside, same⟩ := List.mem_filterMap.mp member
    cases outcome with
    | source file => cases same
    | skipped file =>
        cases same
        obtain ⟨path, _, read⟩ := (mem_of_mapM looked).mp inside
        rcases Discovery.readOne_cases read with ⟨_, _, told, _⟩ | ⟨_, told, _, unplaced, _⟩
        · cases told
        · cases told
          exact unplaced

theorem takes_of_gather {readings : Discovery.Readings}
    (gathered : ((gather settings root directory).run world).1 = .ok readings) :
    ∃ files, view settings root directory world.disk = .ok files ∧
      Takes settings.maxFileBytes readings files := by
  obtain ⟨_, paths, outcomes, found, looked, rfl⟩ := gather_eq_ok.mp gathered
  refine ⟨readable world.disk root paths, ?_, takes_of_outcomes looked⟩
  rw [view, found, ok_bind]

theorem names_sources {disk : Disk} {limit : Int} {paths : List Path}
    {outcomes : List Discovery.Reading}
    (looked : paths.mapM (Discovery.readOne disk root limit) = .ok outcomes) :
    ((Discovery.Readings.ofOutcomes outcomes).sources.map SourceFile.path).Sublist
      (paths.map (Discovery.relativeName root)) := by
  induction paths generalizing outcomes with
  | nil =>
      cases looked
      exact .slnil
  | cons path rest ih =>
      obtain ⟨outcome, others, read, later, rfl⟩ := mapM_cons_eq_ok.mp looked
      have tail := ih later
      rcases Discovery.readOne_cases read with ⟨content, modified, rfl, _⟩ | ⟨file, rfl, _⟩
      · exact .cons_cons _ tail
      · exact .cons _ tail

theorem order_ofOutcomes {disk : Disk} {limit : Int} {paths : List Path}
    {outcomes : List Discovery.Reading} (listed : Discovery.Listed disk root paths)
    (looked : paths.mapM (Discovery.readOne disk root limit) = .ok outcomes) :
    Build.order (Discovery.Readings.ofOutcomes outcomes).sources =
      .ok (Discovery.Readings.ofOutcomes outcomes).sources := by
  refine Build.order_of_ascending ?_ (listed.ascending.sublist (names_sources looked))
  intro source member
  obtain ⟨path, inside, named⟩ :=
    List.mem_map.mp ((names_sources looked).subset (List.mem_map_of_mem member))
  rw [← named]
  exact listed.normal path inside

/-- The files of a wellNamed tree can all be gathered, and are in order then. -/
theorem WellNamed.gather {files : List (String × Bytes)}
    (wellNamed : WellNamed settings root directory world.disk)
    (isDir : world.disk.isDir root = .ok true)
    (seen : view settings root directory world.disk = .ok files) :
    ∃ readings, ((gather settings root directory).run world).1 = .ok readings ∧
      Takes settings.maxFileBytes readings files ∧
      Build.order readings.sources = .ok readings.sources := by
  obtain ⟨paths, found, shown⟩ := bind_eq_ok.mp seen
  cases shown
  have listed := wellNamed.listed found
  obtain ⟨outcomes, looked⟩ := mapM_of_each (fun path member =>
    Discovery.readOne_of_isFile (listed.files path member) root settings.maxFileBytes)
  refine ⟨.ofOutcomes outcomes, ?_, takes_of_outcomes looked, order_ofOutcomes listed looked⟩
  exact gather_eq_ok.mpr ⟨isDir, paths, outcomes, found, looked, rfl⟩

theorem calm_fingerprints (settings : Settings) (root directory : Path) :
    Run.Calm (fingerprints settings root directory) := by
  refine .get (fun world => ?_) (fun world other same => by simp only [same])
  refine (Run.Calm.isDirectory root).bind (fun isDir => ?_)
  cases isDir with
  | false => exact .pure _
  | true =>
      refine (Run.Calm.discover settings root directory).bind (fun paths => ?_)
      exact (Run.Calm.notes _).bind (fun _ => .pure _)

/-- What an audit reports of a disk. Notes and spans are left out. -/
def audited (settings : Settings) (root : Path) (store : Store) (disk : Disk) :
    Except Fault AuditReport := do
  let stored ← store.load disk
  let problems ← (freshReader disk stored).validate
  let content ← Store.contentAt disk stored.path
  let skipped ← stored.skippedFiles content
  let tokensIndexed ← stored.tokenCount
  let files ← view settings root store.directory disk
  let comparison := compare stored.entries skipped (files.map printOf)
  .ok {
    root
    indexPath := store.path
    filesIndexed := stored.entries.length
    tokensIndexed
    created := stored.created
    problems
    stale := comparison.stale
    missing := comparison.missing
    new := comparison.new
    skipped }

theorem result_auditInstalled (settings : Settings) (root : Path) (store : Store) (world : World) :
    ((auditInstalled settings root store.directory).run world).1 =
      audited settings root store world.disk := by
  rw [auditInstalled, Run.get_bind_run]
  refine Run.result_ofExcept_bind (fun stored => ?_)
  refine Run.result_ofExcept_bind (fun problems => ?_)
  refine Run.result_ofExcept_bind (fun content => ?_)
  refine Run.result_ofExcept_bind (fun skipped => ?_)
  refine Run.result_ofExcept_bind (fun tokens => ?_)
  refine ((calm_fingerprints settings root store.directory).result_bind (fun _ _ _ => rfl)).trans ?_
  rw [result_fingerprints]
  cases view settings root store.directory world.disk <;> rfl

def toldAudit (report : AuditReport) : Telemetry.Attributes :=
  [("audit_status", .text (.ofString report.status))]

theorem result_audit {store : Store}
    (placed : settings.indexDirOf world.home root = .ok store.directory) :
    ((audit settings root).run world).1 = audited settings root store world.disk := by
  have asked : (indexDir settings root).run world = (.ok store.directory, world) := by
    change (Run.ofExcept (settings.indexDirOf world.home root)).run world = _
    rw [placed]
    rfl
  have bound : (Run.bindRoot root).run world = (.ok (), world.bindRoot root.text) := rfl
  have result := result_auditInstalled settings root store (inside world root)
  have same : (inside world root).disk = world.disk := rfl
  rw [audit, Run.bind_of_ok asked, Run.bind_of_ok bound, ← same, ← result]
  cases ran : (auditInstalled settings root store.directory).run (inside world root) with
  | mk outcome after =>
      cases outcome with
      | error fault =>
          have body : (auditInstalled settings root store.directory >>= fun report =>
              pure (report, toldAudit report)).run (inside world root) = (.error fault, after) :=
            Run.bind_of_error ran
          obtain ⟨last, _, traced⟩ := Run.traced_run (world.bindRoot root.text) body
          change _ = ((Except.error fault : Except Fault AuditReport), last).1
          exact congrArg Prod.fst (Run.bind_of_error traced)
      | ok report =>
          have body : (auditInstalled settings root store.directory >>= fun report =>
              pure (report, toldAudit report)).run (inside world root) =
              (.ok (report, toldAudit report), after) := by
            rw [Run.bind_of_ok ran]
            rfl
          obtain ⟨last, _, traced⟩ := Run.traced_run (world.bindRoot root.text) body
          exact (congrArg Prod.fst (Run.bind_of_ok traced)).trans (result_notes_pure _ _ _)

end TokenSearch.Service
