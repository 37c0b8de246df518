import TokenSearch.Proofs.Artifact.Readings
import TokenSearch.Proofs.Index.Consistent
import TokenSearch.Proofs.Service.Compare
import TokenSearch.Proofs.Service.Unseen

namespace TokenSearch

/-! Auditing the artifact that a build left. As long as nobody touches it, it passes its check, and the
audit tells how the files on disk differ from those that the build took. -/

open Data Artifact
open Store (bare)

/-- The artifact of a store is as it was. Anything else may have changed. -/
structure Store.Untouched (store : Store) (before after : Disk) : Prop where
  present : store.isPresent after = store.isPresent before
  content : contentAt after store.path = contentAt before store.path

theorem Store.Untouched.load_eq {store : Store} {before after : Disk}
    (untouched : store.Untouched before after) : store.load after = store.load before := by
  rw [load, load, untouched.present, untouched.content]

namespace Service

variable {call : Call} {store : Store} {readings : Discovery.Readings} {previous : Option Stored}
  {result : BuildResult} {tables : Tables} {left disk : Disk} {files : List (String × Bytes)}

/-- Readers of an untouched artifact see the index that was built. -/
theorem Leaves.agrees (leaves : Leaves call store readings previous result tables left)
    (untouched : store.Untouched left disk) {kept : String} (fitting : Fitting result.index)
    (same : tables = tablesOf result.index ((latest (byPath (readings.skipped ++ result.skipped))).map
      SkippedRow.ofFile) kept call.details.created) :
    (freshReader disk (storedOf result.index kept call.details.created store.path)).Agrees
      result.index.reader := by
  obtain ⟨ordered, _, accounts⟩ := leaves.accounts
  rw [freshReader, path_storedOf, untouched.content, leaves.content, same]
  exact fitting.agrees accounts.dense rfl rfl rfl

/-- An audit of an untouched artifact finds it sound, and compares its files with those on disk, if
these can be found. -/
theorem Leaves.audited_view (leaves : Leaves call store readings previous result tables left)
    (untouched : store.Untouched left disk) :
    ∃ (report : Comparison → AuditReport) (rows : List SkippedRow),
      audited call.settings call.root store disk =
        (view call.settings call.root store.directory disk).map (fun files =>
          report (compare (result.index.files.map IndexedFile.entry) rows (files.map printOf))) ∧
      (∀ comparison, (report comparison).problems = [] ∧
        (report comparison).comparison = comparison) ∧
      ∀ path, rows.any (fun row => row.path = .text path) = true ↔
        path ∈ (byPath (readings.skipped ++ result.skipped)).map SkippedFile.path := by
  obtain ⟨ordered, _, accounts⟩ := leaves.accounts
  obtain ⟨kept, _, fitting, same⟩ := leaves.tables_eq
  obtain ⟨countable, loaded⟩ := leaves.load fitting same
  have content := untouched.content.trans leaves.content
  have agrees := leaves.agrees untouched fitting same
  have sound : (freshReader disk
      (storedOf result.index kept call.details.created store.path)).validate = .ok [] := by
    rw [agrees.validate_eq fitting.bounded, accounts.postings]
    exact Index.validate_ofFiles accounts.dense
  have held : tables.skipped =
      some ((latest (byPath (readings.skipped ++ result.skipped))).map SkippedRow.ofFile) := by
    rw [same]
    rfl
  obtain ⟨rows, skipped, told⟩ : ∃ rows, (storedOf result.index kept call.details.created
      store.path).skippedFiles (.tables tables) = .ok rows ∧
      ∀ path, rows.any (fun row => row.path = .text path) = true ↔
        path ∈ (byPath (readings.skipped ++ result.skipped)).map SkippedFile.path := by
    refine ⟨_, skippedFiles_eq _ held, fun path => ?_⟩
    rw [List.any_map, List.any_eq_true]
    simp only [List.mem_mergeSort, Function.comp_apply, SkippedRow.ofFile, decide_eq_true_eq,
      Cell.text.injEq]
    rw [← mem_path_latest, List.mem_map]
  refine ⟨fun comparison => {
      root := call.root
      indexPath := store.path
      filesIndexed := (result.index.files.map IndexedFile.entry).length
      tokensIndexed := result.index.tokenCount
      created := (storedOf result.index kept call.details.created store.path).created
      problems := []
      stale := comparison.stale
      missing := comparison.missing
      new := comparison.new
      skipped := rows }, rows, ?_, fun _ => ⟨rfl, rfl⟩, told⟩
  rw [audited, untouched.load_eq, loaded, ok_bind, sound, ok_bind, path_storedOf, content, ok_bind,
    skipped, ok_bind, tokenCount_storedOf countable, ok_bind]
  cases view call.settings call.root store.directory disk <;> rfl

theorem Leaves.audited_eq (leaves : Leaves call store readings previous result tables left)
    (untouched : store.Untouched left disk)
    (seen : view call.settings call.root store.directory disk = .ok files) :
    ∃ report rows, audited call.settings call.root store disk = .ok report ∧ report.problems = [] ∧
      report.comparison =
        compare (result.index.files.map IndexedFile.entry) rows (files.map printOf) ∧
      ∀ path, rows.any (fun row => row.path = .text path) = true ↔
        path ∈ (byPath (readings.skipped ++ result.skipped)).map SkippedFile.path := by
  obtain ⟨report, rows, audited, told, skipped⟩ := leaves.audited_view untouched
  rw [seen] at audited
  exact ⟨_, rows, audited, (told _).1, (told _).2, skipped⟩

/-- The files that a build indexed have the contents of its sources. -/
theorem Leaves.source_of_indexed (leaves : Leaves call store readings previous result tables left)
    {file : IndexedFile} (member : file ∈ result.index.files) :
    ∃ source ∈ readings.sources, file.path = normalizePath source.path ∧
      file.source = source.content ∧
      file.fingerprint = .ofContent source.content source.modified := by
  obtain ⟨ordered, sorted, accounts⟩ := leaves.accounts
  obtain ⟨source, inside, path, content, print⟩ := accounts.files file member
  obtain ⟨given, known, rfl⟩ := Build.mem_order sorted inside
  exact ⟨given, known, path, content, print⟩

/-- Where the files are those that the build took, there is no difference. -/
theorem Leaves.no_difference (leaves : Leaves call store readings previous result tables left)
    (named : Named files) {limit : Int} (takes : Takes limit readings files) {comparison : Comparison}
    (exact_ : comparison.Exact ShowsChange result.index.files
      ((byPath (readings.skipped ++ result.skipped)).map SkippedFile.path) files) :
    comparison = ⟨[], [], []⟩ := by
  have known {source : SourceFile} (member : source ∈ readings.sources) :
      normalizePath source.path = source.path :=
    named.normal (source.path, source.content) (takes.sources source member)
  have stale : comparison.stale = [] := by
    rw [List.eq_nil_iff_forall_not_mem]
    intro path member
    obtain ⟨file, inside, rfl, content, listed, changed⟩ := (exact_.stale path).mp member
    obtain ⟨source, given, path, same, print⟩ := leaves.source_of_indexed inside
    rw [path, known given] at listed
    have content := (named.content_eq listed (takes.sources source given)).trans same.symm
    rw [← same] at print
    rw [ShowsChange, content, isEquivalent_source print] at changed
    contradiction
  have missing : comparison.missing = [] := by
    obtain ⟨paths, told, _, gone⟩ := exact_.missing
    rw [told, List.map_eq_nil_iff, List.eq_nil_iff_forall_not_mem]
    intro path member
    obtain ⟨listed, absent⟩ := (gone path).mp member
    obtain ⟨file, inside, rfl⟩ := List.mem_map.mp listed
    obtain ⟨source, given, path, _⟩ := leaves.source_of_indexed inside
    rw [path, known given] at absent
    exact absent (List.mem_map_of_mem (takes.sources source given))
  have new : comparison.new = [] := by
    rw [List.eq_nil_iff_forall_not_mem]
    intro path member
    obtain ⟨listed, unindexed, unskipped⟩ := (exact_.new path).mp member
    obtain ⟨file, inside, rfl⟩ := List.mem_map.mp listed
    have passed {other : SkippedFile} (among : other ∈ readings.skipped ++ result.skipped) :
        other.path ≠ file.1 := by
      intro same
      exact unskipped (same ▸ List.mem_map_of_mem (List.mem_mergeSort.mpr among))
    -- a file that can be read was a source, and so was indexed or skipped, or it was too large
    obtain ⟨ordered, sorted, accounts⟩ := leaves.accounts
    rcases takes.files file inside with ⟨source, given, same⟩ | ⟨_, other, given, same⟩
    · rcases accounts.sources _ (Build.mem_order_of_mem sorted given) with
        ⟨indexed, held, path⟩ | ⟨other, held, path⟩
      · rw [known given, same] at path
        exact unindexed (List.mem_map.mpr ⟨indexed, held, path⟩)
      · rw [known given, same] at path
        exact passed (List.mem_append_right _ held) path
    · exact passed (List.mem_append_left _ given) same
  cases comparison
  simp only at stale missing new
  rw [stale, missing, new]

/-- A world in which the index that a call left is audited. Its place is the same, the artifact was not
touched and can be opened, and the names of what is found can be told. -/
structure Call.Revisited (call : Call) (store : Store) (after later : World) : Prop where
  placed : call.settings.indexDirOf later.home call.root = .ok store.directory
  untouched : store.Untouched after.disk later.disk
  opened : ∃ content, Store.contentAt later.disk store.path = .ok content
  wellNamed : WellNamed call.settings call.root store.directory later.disk

/-- Where the files are those before the build, an audit finds that all is well. -/
theorem Leaves.audited_unchanged (leaves : Leaves call store readings previous result tables left)
    (discovers : call.sources = none) (untouched : store.Untouched left disk)
    (wellNamed : WellNamed call.settings call.root store.directory disk)
    (same : view call.settings call.root store.directory disk =
      view call.settings call.root store.directory call.world.disk) :
    ∃ told, audited call.settings call.root store disk = .ok told ∧ told.status = "ok" := by
  have read := leaves.read
  rw [Call.readings, discovers] at read
  obtain ⟨files, seen, takes⟩ := takes_of_gather read
  obtain ⟨told, rows, audited, problems, compared, skipped⟩ :=
    leaves.audited_eq untouched (same.trans seen)
  obtain ⟨_, _, accounts⟩ := leaves.accounts
  have named := wellNamed.named (same.trans seen)
  have none_ := leaves.no_difference named takes (compare_exact accounts.ascending named skipped)
  refine ⟨told, audited, ?_⟩
  rw [AuditReport.status_of_no_problems problems, compared, none_, if_pos rfl]

theorem audit_run {outcome : Except Fault AuditReport} {later : World}
    (placed : call.settings.indexDirOf later.home call.root = .ok store.directory)
    (told : audited call.settings call.root store later.disk = outcome) :
    ∃ last, (audit call.settings call.root).run later = (outcome, last) :=
  ⟨_, Prod.ext ((result_audit placed).trans told) rfl⟩

/-- An audit of an untouched artifact tells exactly how the files that can be found and read differ
from those that the build indexed, and leaves the ones that it skipped alone; it fails only if they
cannot be found. Right after a build that does not see its artifact, all is well. -/
theorem audit_tells_differences {report : BuildReport} {after : World}
    (placed : call.settings.indexDirOf call.world.home call.root = .ok store.directory)
    (discovers : call.sources = none) (hasCurrent : call.world.disk.HasCurrent)
    (fresh : store.Fresh call.world.disk call.details.nonce)
    (returned : call.run = (.ok report, after)) :
    (∀ later contents, call.Revisited store after later → Apart contents →
      (∀ readings, call.readings store = .ok readings →
        ∀ source ∈ readings.sources, source.content ∈ contents) →
      (∀ files, view call.settings call.root store.directory later.disk = .ok files →
        ∀ file ∈ files, file.2 ∈ contents) →
      (∀ fault, view call.settings call.root store.directory later.disk = .error fault →
        ∃ last, (audit call.settings call.root).run later = (.error fault, last)) ∧
      ∀ files, view call.settings call.root store.directory later.disk = .ok files →
        ∃ readings previous result tables told last,
          Leaves call store readings previous result tables after.disk ∧
          (audit call.settings call.root).run later = (.ok told, last) ∧ told.problems = [] ∧
          told.comparison.Exact (fun file content => content ≠ file.source) result.index.files
            (report.skipped.map SkippedFile.path) files ∧
          (told.status = if told.comparison = ⟨[], [], []⟩ then "ok" else "stale") ∧
          (view call.settings call.root store.directory call.world.disk = .ok files →
            told.status = "ok")) ∧
    (call.world.disk.Sound → Unseen call.settings call.root store call.world.disk →
      WellNamed call.settings call.root store.directory after.disk → ∀ later : World,
      later.disk = after.disk →
      call.settings.indexDirOf later.home call.root = .ok store.directory →
      ∃ told last, (audit call.settings call.root).run later = (.ok told, last) ∧
        told.status = "ok") := by
  refine ⟨fun later contents revisited apart taken known => ?_,
    fun sound unseen wellNamed later same placedLater => ?_⟩
  · obtain ⟨placedLater, untouched, ⟨content, there⟩, wellNamed⟩ := revisited
    obtain ⟨readings, previous, result, tables, leaves, rfl⟩ :=
      Call.leaves_of_content placed hasCurrent fresh returned (untouched.content.symm.trans there)
    refine ⟨fun fault barred => ?_, fun files seen => ?_⟩
    · obtain ⟨report, rows, audited, _⟩ := leaves.audited_view untouched
      rw [barred] at audited
      exact audit_run placedLater audited
    · obtain ⟨told, rows, audited, problems, compared, skipped⟩ := leaves.audited_eq untouched seen
      obtain ⟨ordered, _, accounts⟩ := leaves.accounts
      have printed : told.comparison.Exact (fun file content => content ≠ file.source)
          result.index.files ((byPath (readings.skipped ++ result.skipped)).map SkippedFile.path)
          files := by
        rw [compared]
        refine (compare_exact accounts.ascending (wellNamed.named seen) skipped).of_apart apart ?_ ?_
          (known files seen)
        · intro file member
          obtain ⟨source, _, _, same, print⟩ := leaves.source_of_indexed member
          exact ⟨source.modified, same ▸ print⟩
        · intro file member
          obtain ⟨source, given, _, same, _⟩ := leaves.source_of_indexed member
          exact same ▸ taken readings leaves.read source given
      obtain ⟨last, ran⟩ := audit_run placedLater audited
      refine ⟨readings, previous, result, tables, told, last, leaves, ran, problems, printed,
        AuditReport.status_of_no_problems problems, fun unchanged => ?_⟩
      obtain ⟨again, same, well⟩ :=
        leaves.audited_unchanged discovers untouched wellNamed (seen.trans unchanged.symm)
      cases audited.symm.trans same
      exact well
  · obtain ⟨⟨readings, previous, result, tables, leaves⟩, viewed⟩ :=
      Call.leaves_unseen placed discovers sound fresh unseen returned wellNamed.proper
    rw [← same] at leaves viewed wellNamed
    obtain ⟨told, audited, well⟩ :=
      leaves.audited_unchanged discovers ⟨rfl, rfl⟩ wellNamed viewed
    obtain ⟨last, ran⟩ := audit_run placedLater audited
    exact ⟨told, last, ran, well⟩

def pairFiles (rest : Disk.Entries) : Disk.Entries :=
  .cons (.ofString "a.c") (.file 0) (.cons (.ofString "b.c") (.file 1) rest)

def pairDisk (first second : Bytes) : Disk :=
  ⟨pairFiles .nil, [], [(0, ⟨.bytes first, 0⟩), (1, ⟨.bytes second, 0⟩)], 2, default⟩

theorem pairDisk_writable (first second : Bytes) :
    bare.Writable (pairDisk first second) "0" (pairDisk first second) [] (pairFiles .nil) :=
  Store.bare_writable .none rfl

def shelf : Disk.Entries := .cons (.ofString Store.fileName) (.file 2) .nil

def pairShelf (first second : Bytes) (tables : Tables) : Disk :=
  ⟨pairFiles shelf, [],
    [(0, ⟨.bytes first, 0⟩), (1, ⟨.bytes second, 0⟩), (2, ⟨.artifact tables, 0⟩)], 3, default⟩

theorem saved_pairDisk (first second : Bytes) (tables : Tables) :
    Store.saved (pairDisk first second) [] "0" tables = pairShelf first second tables :=
  rfl

theorem pairShelf_content (first second : Bytes) (tables : Tables) :
    Store.contentAt (pairShelf first second tables) bare.path = .ok (.tables tables) :=
  (Store.bare_installed rfl (Nat.lt_succ_self 2) rfl).contentAt_eq

theorem pairShelf_untouched (first second third fourth : Bytes) (tables : Tables) :
    bare.Untouched (pairShelf first second tables) (pairShelf third fourth tables) where
  present := rfl
  content := by rw [pairShelf_content, pairShelf_content]

/-- A call that builds an index of the files in the root of a disk. -/
def pairCall (disk : Disk) : Call where
  settings := { (default : Settings) with
    indexDir := .ofString "/", extensions := "c", skipDirs := "", maxFileBytes := 4 }
  root := .ofString "/"
  sources := none
  world := ⟨disk, [], .plain, { (default : Chance) with nonce := "0" }, none, default, [], []⟩

theorem pairCall_placed (disk : Disk) : (pairCall disk).settings.indexDirOf (pairCall disk).world.home
    (pairCall disk).root = .ok bare.directory :=
  rfl

theorem pairCall_filter (disk : Disk) :
    (pairCall disk).settings.suffixes = [".c"] ∧ (pairCall disk).settings.skippedNames = [] := by
  have small : Text.lowercase "c" = "c" := Text.lowercase_of_isSmall (by decide)
  have members : Settings.members "c" = ["c"] := by cbv
  constructor
  · simp only [Settings.suffixes, pairCall, members, List.map_cons, List.map_nil, small]
    cbv
  · cbv

def wordHeld : SourceFile := ⟨"a.c", [120], some 0⟩

def quoteHeld : SourceFile := ⟨"b.c", [34, 120], some 0⟩

theorem openPrevious_pairDisk (first second : Bytes) :
    ((openPrevious bare).run (pairCall (pairDisk first second)).world).1 = .ok none := by
  cbv

def heldFile : IndexedFile := ⟨0, "a.c", .ofContent [120] (some 0), [wordAt 0], [120]⟩

def quoteSkipped : SkippedFile :=
  ⟨"b.c", Build.lexFailed, LexCause.unterminatedString.message, some 0⟩

theorem tokenize_quote :
    Lexer.tokenize [34, 120] = .error ⟨.unterminatedString, 0, 1, 1, none⟩ :=
  (Lexer.tokenize_encode ['\x22', 'x']).trans (by cbv)

def pairBuild : BuildResult := ⟨⟨[heldFile], .ofFiles [heldFile]⟩, 0, [quoteSkipped]⟩

theorem pairBuild_storable : Storable pairBuild.index [quoteSkipped] where
  dense := Index.dense_singleton rfl
  paths := by decide
  fileNumbers := by decide
  tokenNumbers := by decide
  words := by simp only [Blob.IsWord]; decide
  fileCount := by decide
  tokenCount := by decide
  postingKeys := by decide
  skippedPaths := by decide
  skippedNumbers := by decide

def pairTables : Tables := tablesOf pairBuild.index [SkippedRow.ofFile quoteSkipped] "/" ""

theorem buildIndex_pair : buildIndex none [wordHeld, quoteHeld] = .ok pairBuild := by
  have sorted : Build.order [wordHeld, quoteHeld] = .ok [wordHeld, quoteHeld] :=
    Build.order_of_ascending (by decide) (by decide)
  rw [buildIndex_none sorted, Build.resultOf_eq]
  simp only [List.map_cons, List.map_nil, Build.scratch, wordHeld, quoteHeld, tokenize_word, tokenize_quote]
  rfl

/-- A disk that can be listed from its root, and is looked at from there. -/
structure Rooted (disk : Disk) : Prop where
  current : disk.current = []
  listed : disk.system.sealed [] = none

def pairPaths : List Path := [.ofString "/a.c", .ofString "/b.c"]

theorem relativeText_pair :
    Discovery.relativeText (.ofString "/") (.ofString "/a.c") = .ofString "a.c" ∧
      Discovery.relativeText (.ofString "/") (.ofString "/b.c") = .ofString "b.c" :=
  ⟨rfl, rfl⟩

theorem inOrder_pairPaths : Discovery.inOrder (.ofString "/") pairPaths = pairPaths := by
  obtain ⟨aName, bName⟩ := relativeText_pair
  have less : Text.RawText.precedes (.ofString "a.c") (.ofString "b.c") = true := by decide
  refine List.mergeSort_of_pairwise ?_
  simp only [pairPaths, List.pairwise_cons, List.mem_singleton, forall_eq, aName, bName, less]
  simp

/-- Of a root that holds the two files and nothing else that is wanted, these are found. -/
theorem visit_pairFiles {disk : Disk} {rest : Disk.Entries} (root : disk.root = pairFiles rest)
    (others : Discovery.visit disk ⟨[".c"], [], some []⟩ (.ofString "/") rest = .ok []) :
    Discovery.visit disk ⟨[".c"], [], some []⟩ (.ofString "/") disk.root =
      .ok (pairPaths.map .file) := by
  have wanted : Discovery.Filter.wants ⟨[".c"], [], some []⟩ (.ofString "a.c") = true ∧
      Discovery.Filter.wants ⟨[".c"], [], some []⟩ (.ofString "b.c") = true := by
    rw [Discovery.Filter.wants_eq rfl (by decide) (by decide : Text.isSmall ".c" = true),
      Discovery.Filter.wants_eq rfl (by decide) (by decide : Text.isSmall ".c" = true)]
    decide
  have first : disk.isFile ((Path.ofString "/").child (.ofString "a.c")) = .ok true :=
    disk.isFile_root ⟨by decide, by decide, by decide⟩ ⟨by decide, by decide⟩ (by rw [root]; rfl)
  have second : disk.isFile ((Path.ofString "/").child (.ofString "b.c")) = .ok true :=
    disk.isFile_root ⟨by decide, by decide, by decide⟩ ⟨by decide, by decide⟩ (by rw [root]; rfl)
  simp only [root, pairFiles, Discovery.visit, Discovery.visitNode, wanted, first, second, others]
  rfl

theorem Rooted.filesUnder_eq {disk : Disk} (rooted : Rooted disk) {sights : List Discovery.Sight}
    (visited : Discovery.visit disk ⟨[".c"], [], some []⟩ (.ofString "/") disk.root = .ok sights) :
    filesUnder (pairCall disk).settings (.ofString "/") bare.directory disk =
      .ok (Discovery.inOrder (.ofString "/") (Discovery.filesOf sights)) := by
  obtain ⟨suffixes, skipped⟩ := pairCall_filter disk
  obtain ⟨notes, discovered⟩ := Discovery.discover_of_visit (disk.scan_root rooted.listed) visited
  rw [filesUnder, disk.isDir_root, ok_mapError, ok_bind, if_pos rfl, bare,
    Discovery.exclude_root rooted.current, ok_bind, suffixes, skipped, discovered]
  rfl

theorem pairDisk_paths (first second : Bytes) :
    filesUnder (pairCall (pairDisk first second)).settings (.ofString "/") bare.directory
      (pairDisk first second) = .ok pairPaths :=
  (Rooted.filesUnder_eq ⟨rfl, rfl⟩ (visit_pairFiles rfl rfl)).trans
    (congrArg Except.ok inOrder_pairPaths)

theorem visit_shelf (first second : Bytes) (tables : Tables) :
    Discovery.visit (pairShelf first second tables) ⟨[".c"], [], some []⟩ (.ofString "/") shelf =
      .ok [] := by
  have other : Discovery.Filter.wants ⟨[".c"], [], some []⟩ (.ofString Store.fileName) = false := by
    rw [Discovery.Filter.wants_eq rfl (by decide) (by decide : Text.isSmall ".db" = true)]
    decide
  simp only [shelf, Discovery.visit, Discovery.visitNode, other]
  rfl

theorem pairShelf_paths (first second : Bytes) (tables : Tables) :
    filesUnder (pairCall (pairShelf first second tables)).settings (.ofString "/") bare.directory
      (pairShelf first second tables) = .ok pairPaths :=
  (Rooted.filesUnder_eq ⟨rfl, rfl⟩ (visit_pairFiles rfl (visit_shelf ..))).trans
    (congrArg Except.ok inOrder_pairPaths)

theorem pairShelf_wellNamed (first second : Bytes) (tables : Tables) :
    WellNamed (pairCall (pairShelf first second tables)).settings (.ofString "/") bare.directory
      (pairShelf first second tables) where
  proper := by
    have part (name : String) (named : Path.isName (.ofString name) = true)
        (plain : Path.slash ∉ (Text.RawText.ofString name).points) : Path.IsPart (.ofString name) :=
      ⟨named, plain⟩
    exact ⟨part "a.c" (by decide) (by decide), by decide, trivial,
      part "b.c" (by decide) (by decide), by decide, trivial,
      part "index.db" (by decide) (by decide), List.not_mem_nil, trivial, trivial⟩
  told := by
    intro paths found
    cases (pairShelf_paths first second tables).symm.trans found
    obtain ⟨aName, bName⟩ := relativeText_pair
    exact List.forall_mem_cons.mpr ⟨⟨_, aName⟩, List.forall_mem_singleton.mpr ⟨_, bName⟩⟩

theorem pairShelf_view (first second : Bytes) (tables : Tables) :
    view (pairCall (pairShelf first second tables)).settings (.ofString "/") bare.directory
      (pairShelf first second tables) = .ok [("a.c", first), ("b.c", second)] := by
  rw [view, pairShelf_paths]
  cbv

theorem pairDisk_readings :
    (pairCall (pairDisk [120] [34, 120])).readings bare = .ok ⟨[wordHeld, quoteHeld], []⟩ := by
  have read : pairPaths.mapM (Discovery.readOne (pairDisk [120] [34, 120]) (.ofString "/") 4) =
      .ok [.source wordHeld, .source quoteHeld] := by cbv
  exact gather_eq_ok.mpr ⟨Disk.isDir_root _, pairPaths, _, pairDisk_paths .., read, rfl⟩

theorem pairCall_rooted (disk : Disk) : keepText (pairCall disk).details.root = .ok "/" := by cbv

theorem pairCall_run :
    ∃ report after, (pairCall (pairDisk [120] [34, 120])).run = (.ok report, after) ∧
      report.skipped = [quoteSkipped] ∧ after.disk = pairShelf [120] [34, 120] pairTables ∧
      Leaves (pairCall (pairDisk [120] [34, 120])) bare ⟨[wordHeld, quoteHeld], []⟩ none pairBuild
        pairTables after.disk := by
  have opened := openPrevious_pairDisk [120] [34, 120]
  have ready := prepared_eq_ok.mpr ⟨pairDisk_readings, none, opened, buildIndex_pair⟩
  have skipped : byPath ([] ++ [quoteSkipped]) = [quoteSkipped] := List.mergeSort_singleton _
  have encoded : Artifact.encode (bare.draft (pairCall (pairDisk [120] [34, 120])).details.nonce)
      pairBuild.index (byPath ([] ++ [quoteSkipped]))
      (pairCall (pairDisk [120] [34, 120])).details.root
      (pairCall (pairDisk [120] [34, 120])).details.created = .ok pairTables := by
    rw [skipped]
    exact pairBuild_storable.encode (pairCall_rooted _) _ _
  have writable := pairDisk_writable [120] [34, 120]
  obtain ⟨after, disk, ran⟩ := Call.run_eq_ok (pairCall_placed _) ready writable encoded
  have installed := (writable.save_eq encoded).2
  refine ⟨_, after, ran, skipped, disk.trans (saved_pairDisk [120] [34, 120] pairTables), ?_⟩
  exact ⟨pairDisk_readings, opened, buildIndex_pair, encoded, _, _, _, disk ▸ installed⟩

theorem pairFiles_proper : (pairFiles .nil).Names Path.IsEntry := by
  have entry (name : String) (named : Path.isName (.ofString name) = true)
      (plain : Path.slash ∉ (Text.RawText.ofString name).points)
      (down : Text.RawText.ofString name ≠ Path.above) : Path.IsEntry (.ofString name) :=
    ⟨⟨named, plain⟩, down⟩
  exact ⟨entry "a.c" (by decide) (by decide) (by decide), by decide, trivial,
    entry "b.c" (by decide) (by decide) (by decide), List.not_mem_nil, trivial, trivial⟩

theorem pairDisk_unseen (first second : Bytes) :
    Unseen (pairCall (pairDisk first second)).settings (.ofString "/") bare
      (pairDisk first second) where
  proper := pairFiles_proper
  slot := by
    intro target reached
    rw [Store.place, bare, Disk.resolve_root] at reached
    cases reached
  outside := by
    intro _
    rw [(pairCall_filter _).1, List.map_singleton, Text.lowercase_of_isSmall (by decide)]
    decide
  leads := by
    intro entries names scanned qualifies
    cases (Disk.scan_root rfl).symm.trans scanned
    obtain ⟨node, found, isEnd⟩ := qualifies.entry
    have here {name : Text.RawText} {serial : Nat} :=
      @Disk.locate_root_file (pairDisk first second) name serial
    rw [Store.place, bare, Disk.resolve_root]
    rcases Disk.Entries.find?_cons_file isEnd found with rfl | found
    · exact ⟨_, _, here ⟨by decide, by decide, by decide⟩ ⟨by decide, by decide⟩ rfl, by decide⟩
    rcases Disk.Entries.find?_cons_file isEnd found with rfl | found
    · exact ⟨_, _, here ⟨by decide, by decide, by decide⟩ ⟨by decide, by decide⟩ rfl, by decide⟩
    · exact absurd found (Disk.Entries.find?_nil_ne isEnd names)

/-- A file that was changed is told; one that was skipped is not, though it could be indexed now.
Right after the build, all is well. -/
theorem pairCall_audited :
    ∃ report after told last, (pairCall (pairDisk [120] [34, 120])).run = (.ok report, after) ∧
      (audit (pairCall after.disk).settings (pairCall after.disk).root).run
        (pairCall (pairShelf [120, 120, 120] [] pairTables)).world = (.ok told, last) ∧
      told.problems = [] ∧ "a.c" ∈ told.stale ∧ "b.c" ∉ told.new ∧
      ∃ now left, (audit (pairCall after.disk).settings (pairCall after.disk).root).run
        (pairCall after.disk).world = (.ok now, left) ∧ now.status = "ok" := by
  obtain ⟨report, after, returned, skipped, disk, _⟩ := pairCall_run
  -- no two of the contents have the same size, so no digests have to be told apart
  have apart : Apart [[120], [34, 120], [120, 120, 120], []] := by
    have sizes : ∀ a ∈ [[120], [34, 120], [120, 120, 120], []],
        ∀ b ∈ [[120], [34, 120], [120, 120, 120], ([] : Bytes)], a.length = b.length → a = b := by
      decide
    intro a first b second same
    exact sizes a first b second (Int.ofNat.inj (congrArg Fingerprint.size same))
  have taken : ∀ readings, (pairCall (pairDisk [120] [34, 120])).readings bare = .ok readings →
      ∀ source ∈ readings.sources, source.content ∈ [[120], [34, 120], [120, 120, 120], []] := by
    intro readings read
    cases pairDisk_readings.symm.trans read
    decide
  have untouched : bare.Untouched after.disk
      (pairCall (pairShelf [120, 120, 120] [] pairTables)).world.disk := by
    rw [disk]
    exact pairShelf_untouched ..
  obtain ⟨differences, calm⟩ := audit_tells_differences (pairCall_placed _) rfl ⟨_, rfl⟩
    (pairDisk_writable [120] [34, 120]).isFresh returned
  have revisited : (pairCall (pairDisk [120] [34, 120])).Revisited bare after
      (pairCall (pairShelf [120, 120, 120] [] pairTables)).world :=
    ⟨pairCall_placed _, untouched, ⟨_, pairShelf_content ..⟩, pairShelf_wellNamed ..⟩
  have known : ∀ files, view (pairCall (pairDisk [120] [34, 120])).settings (.ofString "/")
      bare.directory (pairShelf [120, 120, 120] [] pairTables) = .ok files →
      ∀ file ∈ files, file.2 ∈ [[120], [34, 120], [120, 120, 120], []] := by
    intro files seen
    cases (pairShelf_view ..).symm.trans seen
    decide
  obtain ⟨readings, previous, result, tables, told, last, leaves, ran, problems, exact_, _⟩ :=
    (differences _ _ revisited apart taken known).2 _ (pairShelf_view ..)
  have sound : (pairDisk [120] [34, 120]).Sound :=
    Disk.sound_of_serials ⟨_, rfl⟩ (by decide)
  have wellNamed : WellNamed (pairCall (pairDisk [120] [34, 120])).settings (.ofString "/") bare.directory
      after.disk := disk ▸ pairShelf_wellNamed ..
  obtain ⟨now, left, audited, well⟩ := calm sound (pairDisk_unseen ..) wellNamed
    (pairCall after.disk).world rfl (pairCall_placed _)
  cases pairDisk_readings.symm.trans leaves.read
  cases (openPrevious_pairDisk [120] [34, 120]).symm.trans leaves.opened
  cases buildIndex_pair.symm.trans leaves.built
  refine ⟨report, after, told, last, returned, ran, problems, ?_, ?_, now, left, audited, well⟩
  · exact (exact_.stale "a.c").mpr ⟨heldFile, List.mem_singleton.mpr rfl, rfl, [120, 120, 120],
      List.mem_cons_self, by decide⟩
  · intro new
    have unknown := ((exact_.new "b.c").mp new).2.2
    rw [skipped] at unknown
    exact unknown (List.mem_singleton.mpr rfl)

/-- A root that holds a link to where its artifact will be. -/
def pointerFiles (rest : Disk.Entries) : Disk.Entries :=
  .cons (.ofString "x.c") (.link (.ofString Store.fileName)) rest

def pointerDisk : Disk := ⟨pointerFiles .nil, [], [], 0, default⟩

def emptyBuild : BuildResult := ⟨⟨[], .ofFiles []⟩, 0, []⟩

theorem emptyBuild_storable : Storable emptyBuild.index [] where
  dense := by simp [Index.Dense, emptyBuild]
  paths := by decide
  fileNumbers := by decide
  tokenNumbers := by decide
  words := by simp [emptyBuild, PostingMap.ofFiles]
  fileCount := by decide
  tokenCount := by decide
  postingKeys := by decide
  skippedPaths := by decide
  skippedNumbers := by decide

def emptyTables : Tables := tablesOf emptyBuild.index [] "/" ""

def pointerShelf : Disk :=
  ⟨pointerFiles (.cons (.ofString Store.fileName) (.file 0) .nil), [],
    [(0, ⟨.artifact emptyTables, 0⟩)], 1, default⟩

theorem pointerDisk_writable :
    bare.Writable pointerDisk "0" pointerDisk [] (pointerFiles .nil) :=
  Store.bare_writable .none rfl

theorem wants_pointer : Discovery.Filter.wants ⟨[".c"], [], some []⟩ (.ofString "x.c") = true ∧
    Discovery.Filter.wants ⟨[".c"], [], some []⟩ (.ofString Store.fileName) = false := by
  rw [Discovery.Filter.wants_eq rfl (by decide) (by decide : Text.isSmall ".c" = true),
    Discovery.Filter.wants_eq rfl (by decide) (by decide : Text.isSmall ".db" = true)]
  decide

/-- Before the build the link leads nowhere, and afterwards to the artifact. -/
theorem pointer_filesUnder :
    filesUnder (pairCall pointerDisk).settings (.ofString "/") bare.directory pointerDisk = .ok [] ∧
      filesUnder (pairCall pointerShelf).settings (.ofString "/") bare.directory pointerShelf =
        .ok [.ofString "/x.c"] := by
  have path : (Path.ofString "/").child (.ofString "x.c") = .ofString "/x.c" := rfl
  obtain ⟨wanted, unwanted⟩ := wants_pointer
  constructor
  · have nowhere : pointerDisk.isFile (.ofString "/x.c") = .ok false := by cbv
    have visited : Discovery.visit pointerDisk ⟨[".c"], [], some []⟩ (.ofString "/")
        (pointerFiles .nil) = .ok [] := by
      simp only [pointerFiles, Discovery.visit, Discovery.visitNode, wanted, path, nowhere]
      rfl
    have none_ : Discovery.inOrder (.ofString "/") [] = [] := List.mergeSort_nil
    exact (Rooted.filesUnder_eq ⟨rfl, rfl⟩ visited).trans (congrArg Except.ok none_)
  · have artifact : pointerShelf.isFile (.ofString "/x.c") = .ok true := by cbv
    have visited : Discovery.visit pointerShelf ⟨[".c"], [], some []⟩ (.ofString "/")
        (pointerFiles (.cons (.ofString Store.fileName) (.file 0) .nil)) =
          .ok [.file (.ofString "/x.c")] := by
      simp only [pointerFiles, Discovery.visit, Discovery.visitNode, wanted, unwanted, path, artifact]
      rfl
    have one : Discovery.inOrder (.ofString "/") [.ofString "/x.c"] = [.ofString "/x.c"] :=
      List.mergeSort_singleton _
    exact (Rooted.filesUnder_eq ⟨rfl, rfl⟩ visited).trans (congrArg Except.ok one)

theorem pointerShelf_view :
    view (pairCall pointerShelf).settings (.ofString "/") bare.directory pointerShelf =
      .ok [("x.c", [])] := by
  rw [view, pointer_filesUnder.2]
  cbv

theorem pointerDisk_readings : (pairCall pointerDisk).readings bare = .ok ⟨[], []⟩ :=
  gather_eq_ok.mpr ⟨Disk.isDir_root _, [], [], pointer_filesUnder.1, rfl, rfl⟩

/-- Right after a build, the artifact is found through a link that led nowhere before, and the index is
stale. -/
theorem pointer_makes_stale :
    ∃ report after told last, (pairCall pointerDisk).run = (.ok report, after) ∧
      (audit (pairCall after.disk).settings (pairCall after.disk).root).run
        (pairCall after.disk).world = (.ok told, last) ∧
      "x.c" ∈ told.new ∧ told.status = "stale" := by
  have opened : ((openPrevious bare).run (pairCall pointerDisk).world).1 = .ok none := by cbv
  have built : buildIndex none [] = .ok emptyBuild := buildIndex_none (Build.order_of_ascending
    (by decide) (by decide))
  have ready := prepared_eq_ok.mpr ⟨pointerDisk_readings, none, opened, built⟩
  have encoded : Artifact.encode (bare.draft (pairCall pointerDisk).details.nonce) emptyBuild.index
      (byPath ([] ++ [])) (pairCall pointerDisk).details.root
      (pairCall pointerDisk).details.created = .ok emptyTables :=
    encode_unskipped emptyBuild_storable (pairCall_rooted _) _ _
  obtain ⟨after, disk, ran⟩ := Call.run_eq_ok (pairCall_placed _) ready pointerDisk_writable encoded
  have saved : after.disk = pointerShelf := disk
  have installed := (pointerDisk_writable.save_eq encoded).2
  have leaves : Leaves (pairCall pointerDisk) bare ⟨[], []⟩ none emptyBuild emptyTables after.disk :=
    ⟨pointerDisk_readings, opened, built, encoded, _, _, _, disk ▸ installed⟩
  obtain ⟨told, rows, audited, problems, compared, skipped⟩ :=
    leaves.audited_eq ⟨rfl, rfl⟩ (saved ▸ pointerShelf_view)
  have named : Named [("x.c", [])] := ⟨by decide, by decide⟩
  have new : "x.c" ∈ told.comparison.new := by
    rw [compared]
    refine ((compare_exact .nil named skipped).new "x.c").mpr ⟨List.mem_cons_self, ?_, ?_⟩ <;>
      simp [byPath, emptyBuild]
  have placed := pairCall_placed after.disk
  obtain ⟨last, ran_⟩ := audit_run placed audited
  refine ⟨_, after, told, last, ran, ran_, new, ?_⟩
  rw [AuditReport.status_of_no_problems problems, if_neg]
  intro none_
  rw [none_] at new
  contradiction

end Service

end TokenSearch
