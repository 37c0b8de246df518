import Mathlib
import TokenSearch.Proofs.Artifact.Atomic
import TokenSearch.Proofs.Artifact.Damage
import TokenSearch.Proofs.Index.Accounts
import TokenSearch.Proofs.Lexer.Tiling
import TokenSearch.Proofs.Service.Build

namespace TokenSearch.Service

/-! Building an index again and again. Whatever happened to the artifact in between, each build that
returns installs what a build from scratch installs. -/

open Data Artifact
open Store (bare bareDisk)

/-- A call of the builder, in some world. -/
structure Call where
  settings : Settings
  root : Path
  sources : Option (List SourceFile)
  world : World

namespace Call

def run (call : Call) : Except Fault BuildReport × World :=
  (build call.settings call.root call.sources).run call.world

def readings (call : Call) (store : Store) : Except Fault Discovery.Readings :=
  ((reads call.settings call.root store.directory call.sources).run call.world).1

def details (call : Call) : Store.Details :=
  ⟨call.root.text, call.world.chance.created, call.world.chance.nonce⟩

/-- The call is for the store, it reads no other than the given contents, and the name of its draft
is free. -/
structure Fits (call : Call) (store : Store) (contents : List Bytes) : Prop where
  placed : call.settings.indexDirOf call.world.home call.root = .ok store.directory
  known : ∀ readings, call.readings store = .ok readings →
    ∀ source ∈ readings.sources, source.content ∈ contents
  fresh : store.Fresh call.world.disk call.details.nonce

end Call

/-- The disks to which calls and damage lead. A call may also be broken off while it writes, whatever
it was about to save; the names of its draft and of the journal are free. -/
inductive History (store : Store) (contents : List Bytes) (start : Disk) : Disk → Prop where
  | start : History store contents start start
  | build {call : Call} (earlier : History store contents start call.world.disk)
      (fits : call.Fits store contents) : History store contents start call.run.2.disk
  | broken {disk : Disk} {details : Store.Details} (earlier : History store contents start disk)
      (unused : store.Unused disk details.nonce) (index : Index) (skipped : List SkippedFile)
      (phase : Store.Phase) (fault : Fault) (draft journal : Option Disk.Record) :
      History store contents start (store.saveUnder disk index skipped details
        (some (.writing phase fault draft journal))).2
  | damage {disk after : Disk} {before tables : Tables} {modified : Int}
      (earlier : History store contents start disk)
      (held : Store.contentAt disk store.path = .ok (.tables before))
      (damaged : Damaged before tables)
      (written : disk.write store.path ⟨.artifact tables, modified⟩ = .ok after) :
      History store contents start after

variable {store : Store} {contents : List Bytes}

/-- A call that installs what a build from scratch installs. -/
structure Installs (call : Call) (store : Store) (contents : List Bytes)
    (readings : Discovery.Readings) (scratch : BuildResult) (tables : Tables) (after : Disk) :
    Prop where
  read : call.readings store = .ok readings
  built : buildIndex none readings.sources = .ok scratch
  lexed : Index.Lexed contents scratch.index.files
  encoded : Artifact.encode (store.draft call.details.nonce) scratch.index
    (byPath (readings.skipped ++ scratch.skipped)) call.details.root call.details.created =
      .ok tables
  installed : ∃ home entries serial, store.Installed after home entries serial tables

/-- A call that has something to save, and a place for it, returns. -/
theorem Call.run_eq_ok {call : Call} {readings : Discovery.Readings} {result : BuildResult}
    (placed : call.settings.indexDirOf call.world.home call.root = .ok store.directory)
    (ready : prepared call.settings call.root store call.sources call.world = .ok (readings, result))
    {made : Disk} {home : List Text.RawText} {entries : Disk.Entries} {tables : Tables}
    (writable : store.Writable call.world.disk call.details.nonce made home entries)
    (encoded : Artifact.encode (store.draft call.details.nonce) result.index
      (byPath (readings.skipped ++ result.skipped)) call.details.root call.details.created =
        .ok tables) :
    ∃ after : World, after.disk = Store.saved made home call.details.nonce tables ∧
      call.run = (.ok (reportOf call.root store.path readings result), after) := by
  obtain ⟨after, disk, ran⟩ := build_eq placed
  have saved : saveResult store call.root readings result call.world = _ :=
    (writable.save_eq encoded).1
  rw [ready] at disk ran
  simp only [outcomeOf, saved] at disk ran
  exact ⟨after, disk, ran⟩

theorem faithful_of_keeps (apart : Apart contents) {disk : Disk}
    (keeps : store.Keeps (Grounded contents) disk) {stored : Stored}
    (loaded : store.load disk = .ok stored) : (freshReader disk stored).Faithful contents := by
  cases keeps with
  | vacant empty => exact absurd loaded (empty.load_ne stored)
  | holds installed good =>
      rw [installed.load_eq] at loaded
      rw [freshReader, path_of_load loaded, installed.contentAt_eq]
      exact good.faithful apart loaded

/-- A call fails and leaves an artifact of the same kind, or none, or it installs what a build from
scratch installs. -/
theorem Call.cases (apart : Apart contents) {call : Call} (fits : call.Fits store contents)
    (keeps : store.Keeps (Grounded contents) call.world.disk) :
    (∃ fault after, call.run = (.error fault, after) ∧
      store.Keeps (Grounded contents) after.disk) ∨
    ∃ readings scratch tables reused after,
      call.run =
        (.ok (reportOf call.root store.path readings { scratch with reused := reused }), after) ∧
      Installs call store contents readings scratch tables after.disk := by
  obtain ⟨after, disk, ran⟩ := build_eq fits.placed
  cases ready : prepared call.settings call.root store call.sources call.world with
  | error fault =>
      rw [ready] at disk ran
      exact .inl ⟨fault, after, ran, disk ▸ keeps⟩
  | ok ahead =>
      obtain ⟨readings, result⟩ := ahead
      rw [ready] at disk ran
      simp only [outcomeOf] at disk ran
      obtain ⟨read, previous, opened, built⟩ := prepared_eq_ok.mp ready
      have faithful : ∀ reader, previous.map (freshReader call.world.disk) = some reader →
          reader.Faithful contents := by
        intro reader mapped
        rcases of_openPrevious opened with rfl | ⟨stored, rfl, loaded⟩
        · contradiction
        · cases mapped
          exact faithful_of_keeps apart keeps loaded
      obtain ⟨scratch, fresh, index, skipped, lexed⟩ :=
        buildIndex_faithful faithful (fits.known readings read) built
      rcases keeps.save fits.fresh result.index (byPath (readings.skipped ++ result.skipped)) with
        ⟨fault, left, failed, stays⟩ |
          ⟨tables, left, home, entries, serial, wrote, encoded, installed⟩
      · have saved : saveResult store call.root readings result call.world = (.error fault, left) :=
          failed
        rw [saved] at disk ran
        exact .inl ⟨fault, after, ran, disk ▸ stays⟩
      · have saved : saveResult store call.root readings result call.world = (.ok store.path, left) :=
          wrote
        rw [saved] at disk ran
        subst disk
        rw [← index, ← skipped] at encoded
        refine .inr ⟨readings, scratch, tables, result.reused, after, ?_, read, fresh, lexed, encoded,
          home, entries, serial, installed⟩
        rw [reportOf, index, skipped]
        exact ran

namespace Installs

variable {call : Call} {readings : Discovery.Readings} {scratch : BuildResult} {tables : Tables}
  {after : Disk}

theorem keeps (installs : Installs call store contents readings scratch tables after) :
    store.Keeps (Grounded contents) after := by
  obtain ⟨home, entries, serial, installed⟩ := installs.installed
  obtain ⟨kept, rows, _, _, rfl, _⟩ := tables_of_encode installs.encoded
  exact .holds installed (grounded_tablesOf installs.lexed rows kept _)

theorem countable (installs : Installs call store contents readings scratch tables after) :
    Countable scratch.index := by
  obtain ⟨_, _, _, _, _, fitting⟩ := tables_of_encode installs.encoded
  rw [postings_of_buildIndex installs.built]
  exact countable_ofFiles installs.lexed.dense fitting.fileNumbers

theorem load (installs : Installs call store contents readings scratch tables after) :
    ∃ kept rows, skippedRows (byPath (readings.skipped ++ scratch.skipped)) = .ok rows ∧
      tables = tablesOf scratch.index rows kept call.details.created ∧
      Store.contentAt after store.path = .ok (.tables tables) ∧
      store.load after = .ok (storedOf scratch.index kept call.details.created store.path) := by
  obtain ⟨home, entries, serial, installed⟩ := installs.installed
  obtain ⟨kept, rows, _, found, rfl, _⟩ := tables_of_encode installs.encoded
  refine ⟨kept, rows, found, rfl, installed.contentAt_eq, ?_⟩
  rw [installed.load_eq]
  exact installs.countable.load installs.lexed.dense rfl rfl rfl store.path

end Installs

/-- Calls, broken off or not, and damage keep an artifact grounded, from the first that is installed
on. -/
theorem History.keeps (apart : Apart contents) {start disk : Disk} (vacant : store.Vacant start)
    (history : History store contents start disk) : store.Keeps (Grounded contents) disk := by
  induction history with
  | start => exact .vacant vacant
  | build earlier fits ih =>
      rcases Call.cases apart fits ih with
        ⟨fault, after, failed, keeps⟩ | ⟨readings, scratch, tables, reused, after, ran, installs⟩
      · rw [failed]
        exact keeps
      · rw [ran]
        exact installs.keeps
  | broken earlier unused index skipped phase fault draft journal ih =>
      exact ih.broken unused index skipped phase fault draft journal
  | damage earlier held damaged written ih =>
      cases ih with
      | vacant empty => exact absurd held (empty.contentAt_ne _)
      | holds installed good =>
          rw [installed.contentAt_eq] at held
          cases held
          exact .holds (installed.written written) (good.damaged damaged)

/-- Whatever builds there were before, broken off or not, and whatever damage, a build that returns
installs the artifact of a build from scratch. Those who open it read what they would read if the
same sources were built where no artifact was; only the number of files whose tokens were at hand may
differ. -/
theorem build_from_scratch (apart : Apart contents) {start : Disk} (vacant : store.Vacant start)
    {call : Call} (history : History store contents start call.world.disk)
    (fits : call.Fits store contents) {report : BuildReport} {after : World}
    (returned : call.run = (.ok report, after)) :
    ∃ readings scratch tables stored,
      call.readings store = .ok readings ∧ buildIndex none readings.sources = .ok scratch ∧
      Artifact.encode (store.draft call.details.nonce) scratch.index
        (byPath (readings.skipped ++ scratch.skipped)) call.details.root call.details.created =
          .ok tables ∧
      Store.contentAt after.disk store.path = .ok (.tables tables) ∧
      store.load after.disk = .ok stored ∧
      report = reportOf call.root store.path readings { scratch with reused := report.filesReused } ∧
      ∀ other : Call, ∀ otherReport otherAfter, store.Vacant other.world.disk →
        other.Fits store contents → other.readings store = .ok readings →
        other.run = (.ok otherReport, otherAfter) →
          ∃ otherStored, store.load otherAfter.disk = .ok otherStored ∧
            freshReader after.disk stored = freshReader otherAfter.disk otherStored ∧
            stored.tokenCount = otherStored.tokenCount ∧
            (Store.contentAt after.disk stored.path).bind stored.skippedFiles =
              (Store.contentAt otherAfter.disk otherStored.path).bind otherStored.skippedFiles ∧
            otherReport =
              { report with root := other.root, filesReused := otherReport.filesReused } := by
  rcases Call.cases apart fits (history.keeps apart vacant) with
    ⟨fault, left, failed, _⟩ | ⟨readings, scratch, tables, reused, left, ran, installs⟩
  · rw [failed] at returned
    cases returned
  · rw [ran] at returned
    cases returned
    obtain ⟨kept, rows, found, rfl, content, loaded⟩ := installs.load
    refine ⟨readings, scratch, _, _, installs.read, installs.built, installs.encoded, content, loaded,
      rfl, ?_⟩
    intro other otherReport otherAfter otherVacant otherFits otherRead otherReturned
    rcases Call.cases apart otherFits (.vacant otherVacant) with
      ⟨fault, left, failed, _⟩ | ⟨otherReadings, otherScratch, otherTables, otherReused, otherLeft,
        otherRan, otherInstalls⟩
    · rw [failed] at otherReturned
      cases otherReturned
    · rw [otherRan] at otherReturned
      cases otherReturned
      cases otherRead.symm.trans otherInstalls.read
      cases installs.built.symm.trans otherInstalls.built
      obtain ⟨otherKept, otherRows, otherFound, rfl, otherContent, otherLoaded⟩ := otherInstalls.load
      cases found.symm.trans otherFound
      refine ⟨_, otherLoaded, ?_, ?_, ?_, rfl⟩
      · rw [freshReader, freshReader, path_storedOf, path_storedOf, content, otherContent]
        exact reader_tablesOf scratch.index rows store.path _ _ _ _
      · rw [tokenCount_storedOf installs.countable, tokenCount_storedOf installs.countable]
      · rw [path_storedOf, path_storedOf, content, otherContent]
        rfl

def wordSource : SourceFile := ⟨"a.c", [120], none⟩

/-- A call that builds an index of one word in the root of a disk. -/
def wordCall (disk : Disk) : Call where
  settings := { (default : Settings) with indexDir := .ofString "/" }
  root := .ofString "/"
  sources := some [wordSource]
  world := ⟨disk, [], .plain, { (default : Chance) with nonce := "0" }, none, default, [], []⟩

theorem wordCall_fits {disk made : Disk} {home : List Text.RawText} {entries : Disk.Entries}
    (writable : bare.Writable disk "0" made home entries) : (wordCall disk).Fits bare [[120]] where
  placed := rfl
  known := by
    intro readings read source member
    cases read
    cases List.mem_singleton.mp member
    exact List.mem_singleton.mpr rfl
  fresh := writable.isFresh

def wordFile : IndexedFile := ⟨0, "a.c", .ofContent [120] none, [wordAt 0], [120]⟩

def wordBuild : BuildResult := ⟨⟨[wordFile], .ofFiles [wordFile]⟩, 0, []⟩

theorem wordBuild_storable : Storable wordBuild.index [] where
  dense := Index.dense_singleton rfl
  paths := by decide
  fileNumbers := by decide
  tokenNumbers := by decide
  words := by simp only [Blob.IsWord]; decide
  fileCount := by decide
  tokenCount := by decide
  postingKeys := by decide
  skippedPaths := by decide
  skippedNumbers := by decide

def wordTables : Tables := tablesOf wordBuild.index [] "/" ""

def lostTables : Tables := { wordTables with tokens := some [] }

theorem encode_unskipped {index : Index} (storable : Storable index []) {root : Text.RawText}
    {kept : String} (sound : keepText root = .ok kept) (path : Path) (created : String) :
    Artifact.encode path index (byPath ([] ++ [])) root created =
      .ok (tablesOf index [] kept created) := by
  have sorted : byPath ([] ++ []) = [] := List.mergeSort_nil
  rw [sorted]
  exact storable.encode sound path created

theorem wordCall_rooted (disk : Disk) : keepText (wordCall disk).details.root = .ok "/" := by cbv

theorem wordCall_encode (disk : Disk) : Artifact.encode (bare.draft (wordCall disk).details.nonce)
    wordBuild.index (byPath ([] ++ [])) (wordCall disk).details.root (wordCall disk).details.created =
      .ok wordTables :=
  encode_unskipped wordBuild_storable (wordCall_rooted disk) _ _

theorem scan_word : Lexer.scan .start [] ['x'] = ⟨[wordAt 0], none⟩ := by cbv

theorem tokenize_word : Lexer.tokenize [120] = .ok [wordAt 0] :=
  Lexer.tokenize_eq_ok.mpr ⟨['x'], rfl, scan_word⟩

theorem buildIndex_wordSource {previous : Option Reader} {kind : Build.Reuse}
    (reused : Build.reuse previous "a.c" (.ofContent [120] none) = .ok kind)
    (relexed : kind = .absent ∨ kind = .short) :
    buildIndex previous [wordSource] = .ok wordBuild := by
  have ordered : Build.order [wordSource] = .ok [wordSource] :=
    Build.order_of_ascending (by decide) (by decide)
  have outcome : Build.outcome previous wordSource =
      .ok ⟨wordSource, .ofContent [120] none, kind, .ok [wordAt 0]⟩ := by
    rw [Build.outcome, wordSource, reused, ok_bind]
    rcases relexed with rfl | rfl <;> simp only [tokenize_word] <;> rfl
  rw [buildIndex_of_order ordered, List.mapM_cons, outcome]
  rcases relexed with rfl | rfl <;> rfl

theorem wordCall_run {disk made : Disk} {home : List Text.RawText} {entries : Disk.Entries}
    (writable : bare.Writable disk "0" made home entries) {previous : Option Stored}
    (opened : ((openPrevious bare).run (wordCall disk).world).1 = .ok previous) {kind : Build.Reuse}
    (reused : Build.reuse (previous.map (freshReader disk)) "a.c" (.ofContent [120] none) = .ok kind)
    (relexed : kind = .absent ∨ kind = .short) :
    ∃ report after, (wordCall disk).run = (.ok report, after) ∧
      after.disk = Store.saved made home "0" wordTables := by
  have ready : prepared (wordCall disk).settings (wordCall disk).root bare (wordCall disk).sources
      (wordCall disk).world = .ok (⟨[wordSource], []⟩, wordBuild) :=
    prepared_eq_ok.mpr ⟨rfl, previous, opened, buildIndex_wordSource reused relexed⟩
  obtain ⟨after, left, ran⟩ :=
    Call.run_eq_ok (wordCall_fits writable).placed ready writable (wordCall_encode disk)
  exact ⟨_, after, ran, left⟩

def shelved (tables : Tables) : Disk :=
  ⟨.cons (.ofString Store.fileName) (.file 0) .nil, [], [(0, ⟨.artifact tables, 0⟩)], 1, default⟩

theorem shelved_writable (tables : Tables) : bare.Writable (shelved tables) "0" (shelved tables) []
    (.cons (.ofString Store.fileName) (.file 0) .nil) :=
  Store.bare_writable (.file 0) rfl

theorem shelved_installed (tables : Tables) : bare.Installed (shelved tables) []
    (.cons (.ofString Store.fileName) (.file 0) .nil) 0 tables :=
  Store.bare_installed rfl Nat.zero_lt_one rfl

/-- The first build of a word leaves its artifact. -/
theorem shelved_history (inside : [120] ∈ contents) :
    History bare contents bareDisk (shelved wordTables) := by
  have opened : ((openPrevious bare).run (wordCall bareDisk).world).1 = .ok none := by cbv
  have left (tables : Tables) : Store.saved bareDisk [] "0" tables = shelved tables := rfl
  obtain ⟨_, first, ran, disk⟩ := wordCall_run Store.bareDisk_writable opened rfl (.inl rfl)
  have fits : (wordCall bareDisk).Fits bare contents :=
    { wordCall_fits Store.bareDisk_writable with
      known := by
        intro readings read source member
        cases read
        cases List.mem_singleton.mp member
        exact inside }
  have step := History.build .start fits
  rwa [ran, disk, left] at step

theorem load_lostTables :
    bare.load (shelved lostTables) = .ok (storedOf wordBuild.index "/" "" bare.path) := by
  rw [(shelved_installed lostTables).load_eq]
  exact wordBuild_storable.countable.load wordBuild_storable.dense rfl rfl rfl bare.path

theorem reuse_lostTables :
    Build.reuse (some (freshReader (shelved lostTables) (storedOf wordBuild.index "/" "" bare.path)))
      "a.c" (.ofContent [120] none) = .ok .short := by
  have listed (content : Except Fault Content) :
      Build.entryOf? ((storedOf wordBuild.index "/" "" bare.path).reader content) "a.c" =
        some wordFile.entry := rfl
  have same : wordFile.entry.isEquivalent (.ofContent [120] none) = true := by
    simp [FileEntry.isEquivalent, IndexedFile.entry, wordFile]
  have empty (file start stop : Int) : windowRows [] file start stop = [] := List.mergeSort_nil
  rw [freshReader, path_storedOf, (shelved_installed lostTables).contentAt_eq]
  simp only [Build.reuse, listed, same, if_true, @window_reader _ lostTables [] rfl, empty]
  rfl

/-- A build puts back the token rows that an artifact of an earlier build lost. -/
theorem wordCall_restores :
    ∃ report after, (wordCall (shelved lostTables)).run = (.ok report, after) ∧
      Store.contentAt (shelved lostTables) bare.path = .ok (.tables lostTables) ∧
      Store.contentAt after.disk bare.path = .ok (.tables wordTables) := by
  have apart : Apart [[120]] := by
    intro a first b second _
    rw [List.mem_singleton.mp first, List.mem_singleton.mp second]
  have vacant : bare.Vacant bareDisk :=
    .of_home (Disk.Entries.isDir_nil _) Store.bareDisk_writable.at_ rfl
  have built : History bare [[120]] bareDisk (shelved wordTables) := shelved_history (by decide)
  have damaged : Damaged wordTables lostTables := ⟨rfl, _, _, rfl, rfl, .lose _ .nil⟩
  have written (tables next : Tables) : (shelved tables).write bare.path ⟨.artifact next, 0⟩ =
      .ok (shelved next) := by cbv
  have history : History bare [[120]] bareDisk (shelved lostTables) :=
    .damage built (shelved_installed wordTables).contentAt_eq damaged (written _ _)
  obtain ⟨report, after, returned, _⟩ := wordCall_run (shelved_writable lostTables)
    (openPrevious_of_load load_lostTables) reuse_lostTables (.inr rfl)
  obtain ⟨readings, scratch, tables, _, read, fresh, encoded, content, _⟩ := build_from_scratch apart
    vacant history (wordCall_fits (shelved_writable lostTables)) returned
  cases read
  rw [buildIndex_wordSource rfl (.inl rfl)] at fresh
  cases fresh
  cases (wordCall_encode _).symm.trans encoded
  exact ⟨report, after, returned, (shelved_installed lostTables).contentAt_eq, content⟩

end TokenSearch.Service
