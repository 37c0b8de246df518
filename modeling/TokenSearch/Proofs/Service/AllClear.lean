import TokenSearch.Proofs.Index.Settled
import TokenSearch.Proofs.Lexer.Place
import TokenSearch.Proofs.Service.Audit

namespace TokenSearch

/-! What an audit is good for. Where it finds nothing to rebuild, and none of the skipped files has come
to life, building again gives the index that is there. -/

open Data Artifact
open Store (bare)

/-- Artifacts of the same index: the files have the same numbers and paths, the same tokens, and the
same postings. What else is told of a file, such as when it changed, may differ. -/
structure Artifact.Tables.SameIndex (tables other : Tables) : Prop where
  files : tables.files.map (List.map (fun row => (row.id, row.path))) =
    other.files.map (List.map (fun row => (row.id, row.path)))
  tokens : tables.tokens = other.tokens
  postings : tables.postings = other.postings

theorem Artifact.sameIndex_tablesOf {files others : List IndexedFile}
    (same : files.map IndexedFile.stream = others.map IndexedFile.stream)
    (rows skipped : List SkippedRow) (root other created later : String) :
    (tablesOf ⟨files, PostingMap.ofFiles files⟩ rows root created).SameIndex
      (tablesOf ⟨others, PostingMap.ofFiles others⟩ skipped other later) where
  files := by
    have told := congrArg (List.map (fun stream => (stream.1, Cell.text stream.2.1))) same
    rw [List.map_map, List.map_map] at told
    simp only [tablesOf, Option.map_some, List.map_map]
    exact congrArg some told
  tokens := congrArg some (tokenRowsOf_stream same)
  postings := by
    simp only [tablesOf]
    rw [ofFiles_stream same]

namespace Service

variable {call : Call} {store : Store} {readings : Discovery.Readings} {previous : Option Stored}
  {result : BuildResult} {tables : Tables} {left : Disk} {files : List (String × Bytes)}

/-- The same call in another world. -/
def Call.later (call : Call) (world : World) : Call := { call with world }

/-- An audit that returned could open the artifact, and saw all files. -/
theorem opened_of_audited {settings : Settings} {root : Path} {disk : Disk} {told : AuditReport}
    (returned : audited settings root store disk = .ok told) :
    (∃ content, Store.contentAt disk store.path = .ok content) ∧
      ∃ files, view settings root store.directory disk = .ok files := by
  obtain ⟨stored, loaded, returned⟩ := bind_eq_ok.mp returned
  obtain ⟨_, _, returned⟩ := bind_eq_ok.mp returned
  obtain ⟨_, _, returned⟩ := bind_eq_ok.mp returned
  obtain ⟨_, _, returned⟩ := bind_eq_ok.mp returned
  obtain ⟨_, _, returned⟩ := bind_eq_ok.mp returned
  obtain ⟨files, seen, _⟩ := bind_eq_ok.mp returned
  obtain ⟨content, opened, _⟩ := Store.content_of_load loaded
  exact ⟨⟨content, opened⟩, files, seen⟩

/-- A file that was skipped, and that cannot be indexed now either. -/
def Dormant (limit : Int) (skipped : List String) (files : List (String × Bytes)) : Prop :=
  ∀ path content, path ∈ skipped → (path, content) ∈ files → content.length ≤ limit →
    ∃ error, Lexer.tokenize content = .error error

/-- Where a comparison shows nothing, all sources are settled. -/
theorem settled_of_exact {indexed : List IndexedFile} {postings : PostingMap} {skipped : List String}
    {limit : Int}
    (exact_ : (⟨[], [], []⟩ : Comparison).Exact ShowsChange indexed skipped files)
    (dormant : Dormant limit skipped files) (takes : Takes limit readings files)
    {source : SourceFile} (member : source ∈ readings.sources) :
    Index.Settled ⟨indexed, postings⟩ source := by
  have there := takes.sources source member
  by_cases listed : source.path ∈ indexed.map IndexedFile.path
  · obtain ⟨file, inside, path⟩ := List.mem_map.mp listed
    refine .inl ⟨file, inside, path, ?_⟩
    cases same : file.entry.isEquivalent (.ofContent source.content source.modified) with
    | true => rfl
    | false =>
        have stale := (exact_.stale source.path).mpr
          ⟨file, inside, path, source.content, there, same⟩
        exact absurd stale List.not_mem_nil
  · refine .inr ⟨listed, dormant source.path source.content ?_ there (takes.small source member)⟩
    by_contra unskipped
    have new := (exact_.new source.path).mpr ⟨List.mem_map_of_mem there, listed, unskipped⟩
    exact absurd new List.not_mem_nil

/-- Where a comparison shows nothing, no indexed file lacks its source. -/
theorem covered_of_exact {indexed : List IndexedFile} {skipped : List String} {limit : Int}
    (exact_ : (⟨[], [], []⟩ : Comparison).Exact ShowsChange indexed skipped files)
    (takes : Takes limit readings files)
    (small : ∀ file ∈ indexed, file.fingerprint.size ≤ limit) {file : IndexedFile}
    (member : file ∈ indexed) : ∃ source ∈ readings.sources, source.path = file.path := by
  have present : file.path ∈ files.map Prod.fst := by
    obtain ⟨paths, none_, _, gone⟩ := exact_.missing
    by_contra absent
    have missing := (gone file.path).mpr ⟨List.mem_map_of_mem member, absent⟩
    rw [List.map_eq_nil_iff.mp none_.symm] at missing
    exact absurd missing List.not_mem_nil
  obtain ⟨⟨name, content⟩, inside, named⟩ := List.mem_map.mp present
  simp only at named
  subst named
  rcases takes.files _ inside with source | ⟨large, _⟩
  · exact source
  · have same : file.entry.isEquivalent (.ofContent content none) = true := by
      by_contra differs
      have stale := (exact_.stale file.path).mpr
        ⟨file, member, rfl, content, inside, Bool.eq_false_iff.mpr differs⟩
      exact absurd stale List.not_mem_nil
    have size : file.fingerprint.size = content.length := by
      simp only [FileEntry.isEquivalent, IndexedFile.entry, Cell.agrees_integer, Bool.and_eq_true,
        decide_eq_true_eq] at same
      exact same.1
    have fits := small file member
    simp only at large
    omega

/-- Sizes and times of sources that fit into their columns. -/
def Measured (sources : List SourceFile) : Prop :=
  ∀ source ∈ sources, Cell.fitsColumn source.content.length = true ∧
    ∀ time ∈ source.modified, Cell.fitsColumn time = true

theorem fitting_of_stream {others : List IndexedFile}
    (fitting : Fitting ⟨others, PostingMap.ofFiles others⟩) {sources : List SourceFile}
    (measured : Measured sources) (accounts : result.Accounts sources)
    (same : result.index.files.map IndexedFile.stream = others.map IndexedFile.stream) :
    Fitting result.index := by
  rw [accounts.postings]
  refine fitting.of_stream same ?_ ?_
  · intro file member
    obtain ⟨source, given, _, _, print⟩ := accounts.files file member
    rw [print]
    exact (measured source given).1
  · intro file member time told
    obtain ⟨source, given, _, _, print⟩ := accounts.files file member
    rw [print] at told
    exact (measured source given).2 time told

/-- The files that a build skips can be told: where the lexer refused them lies inside them. -/
theorem skippedRows_of_measured {sources : List SourceFile} {reader : Option Reader}
    (measured : Measured sources) (sorted : Build.order sources = .ok sources)
    (built : buildIndex reader sources = .ok result) {skipped : List SkippedFile}
    (unplaced : ∀ left ∈ skipped, left.offset = none) :
    skippedRows (byPath (skipped ++ result.skipped)) =
      .ok ((latest (byPath (skipped ++ result.skipped))).map SkippedRow.ofFile) := by
  refine skippedRows_eq_ok.mpr ⟨?_, rfl⟩
  intro file member offset told
  rcases List.mem_append.mp (List.mem_mergeSort.mp member) with early | late
  · rw [unplaced file early] at told
    cases told
  · obtain ⟨source, given, cause, refused, same⟩ := refused_of_skipped sorted built late
    rw [same] at told
    cases told
    obtain ⟨read, told, inside⟩ := Lexer.offset_of_tokenize refused
    have fits := (measured source given).1
    simp only [Cell.fitsColumn, Bool.and_eq_true, decide_eq_true_eq] at fits ⊢
    omega

/-- An audit that finds nothing to rebuild is right, as long as no file that was skipped could be
indexed now: a build then returns, and leaves an artifact of the same index. -/
theorem build_after_all_clear {report : BuildReport} {after later last : World} {told : AuditReport}
    {made : Disk} {home : List Text.RawText} {entries : Disk.Entries}
    (placed : call.settings.indexDirOf call.world.home call.root = .ok store.directory)
    (discovers : call.sources = none) (hasCurrent : call.world.disk.HasCurrent)
    (fresh : store.Fresh call.world.disk call.details.nonce)
    (returned : call.run = (.ok report, after))
    (placedLater : call.settings.indexDirOf later.home call.root = .ok store.directory)
    (untouched : store.Untouched after.disk later.disk)
    (wellNamed : WellNamed call.settings call.root store.directory later.disk)
    (isDir : later.disk.isDir call.root = .ok true)
    (audited : (audit call.settings call.root).run later = (.ok told, last))
    (calm : told.needsRebuild = false)
    (dormant : ∀ files, view call.settings call.root store.directory later.disk = .ok files →
      Dormant call.settings.maxFileBytes (report.skipped.map SkippedFile.path) files)
    (measured : ∀ readings, (call.later later).readings store = .ok readings →
      Measured readings.sources)
    (writable : store.Writable later.disk later.chance.nonce made home entries) :
    ∃ tables again final next, Store.contentAt later.disk store.path = .ok (.tables tables) ∧
      (call.later later).run = (.ok again, final) ∧
      Store.contentAt final.disk store.path = .ok (.tables next) ∧ next.SameIndex tables := by
  -- the audit opened what the build had installed, and saw the files that the next build will find
  have found := (result_audit placedLater).symm.trans (congrArg Prod.fst audited)
  obtain ⟨⟨content, there⟩, files, seen⟩ := opened_of_audited found
  obtain ⟨readings, previous, result, tables, leaves, rfl⟩ :=
    Call.leaves_of_content placed hasCurrent fresh returned (untouched.content.symm.trans there)
  obtain ⟨ordered, _, accounts⟩ := leaves.accounts
  obtain ⟨kept, rooted, fitting, same⟩ := leaves.tables_eq
  -- these files show no difference to the index
  obtain ⟨_, rows, again, _, compared, skipped⟩ := leaves.audited_eq untouched seen
  cases again.symm.trans found
  have exact_ := compare_exact accounts.ascending (wellNamed.named seen) skipped
  rw [← compared, (told.needsRebuild_eq_false_iff.mp calm).2] at exact_
  obtain ⟨others, gathered, takes, sorted⟩ := wellNamed.gather isDir seen
  have reads_ (world : World) : ((reads call.settings call.root store.directory call.sources).run
      world).1 = ((gather call.settings call.root store.directory).run world).1 := by
    rw [discovers]
    rfl
  have small : ∀ file ∈ result.index.files, file.fingerprint.size ≤ call.settings.maxFileBytes := by
    obtain ⟨_, _, taken⟩ := takes_of_gather ((reads_ call.world).symm.trans leaves.read)
    intro file member
    obtain ⟨source, given, _, _, print⟩ := leaves.source_of_indexed member
    rw [print]
    exact taken.small source given
  -- so the build gives the same files, and can store them
  obtain ⟨next, built, streams⟩ := buildIndex_settled (leaves.agrees untouched fitting same) fitting
    accounts.dense accounts.ascending sorted
    (fun source member => settled_of_exact exact_ (dormant files seen) takes member)
    (fun file member => covered_of_exact exact_ takes small member)
  have read : (call.later later).readings store = .ok others := (reads_ later).trans gathered
  have counted := measured others read
  have nextAccounts := accounts_of_buildIndex sorted built
  have nextFitting := fitting_of_stream (accounts.postings ▸ fitting) counted nextAccounts streams
  have encoded := nextFitting.encode
    (skippedRows_of_measured counted sorted built takes.unplaced) rooted
    (store.draft (call.later later).details.nonce) (call.later later).details.created
  have opened : ((openPrevious store).run later).1 =
      .ok (some (storedOf result.index kept call.details.created store.path)) :=
    openPrevious_of_load (untouched.load_eq.trans (leaves.load fitting same).2)
  have ready := prepared_eq_ok.mpr ⟨read, _, opened, built⟩
  obtain ⟨final, disk, ran⟩ := @Call.run_eq_ok store (call.later later) _ _ placedLater ready _ _ _ _
    writable encoded
  have installed := (writable.save_eq encoded).2.contentAt_eq
  rw [← disk] at installed
  refine ⟨tables, _, final, _, untouched.content.trans leaves.content, ran, installed, ?_⟩
  rw [same, nextAccounts.postings, accounts.postings]
  exact sameIndex_tablesOf streams _ _ _ _ _ _

theorem pairShelf_writable (first second : Bytes) (tables : Tables) :
    bare.Writable (pairShelf first second tables) "0" (pairShelf first second tables) []
      (pairFiles shelf) :=
  Store.bare_writable (.file 2) rfl

theorem pairShelf_readings {first second : Bytes} {tables : Tables}
    {outcomes : List Discovery.Reading}
    (looked : pairPaths.mapM (Discovery.readOne (pairShelf first second tables) (.ofString "/") 4) =
      .ok outcomes) :
    (pairCall (pairShelf first second tables)).readings bare = .ok (.ofOutcomes outcomes) :=
  gather_eq_ok.mpr ⟨(Disk.isDir_root _), pairPaths, outcomes, pairShelf_paths .., looked, rfl⟩

/-- The audit of the pair has nothing to tell as long as the first file is as it was. -/
theorem pairShelf_calm (second : Bytes) : ∃ told last,
    (audit (pairCall (pairDisk [120] [34, 120])).settings (.ofString "/")).run
      (pairCall (pairShelf [120] second pairTables)).world = (.ok told, last) ∧
    told.needsRebuild = false := by
  obtain ⟨report, after, _, _, disk, leaves⟩ := pairCall_run
  have untouched : bare.Untouched after.disk (pairShelf [120] second pairTables) := by
    rw [disk]
    exact pairShelf_untouched ..
  have seen := pairShelf_view [120] second pairTables
  obtain ⟨told, rows, audited, problems, compared, skipped⟩ := leaves.audited_eq untouched seen
  have found := (result_audit (pairCall_placed (pairShelf [120] second pairTables))).trans audited
  have sorted : byPath ([] ++ [quoteSkipped]) = [quoteSkipped] := List.mergeSort_singleton _
  have known : rows.any (fun row => row.path = .text "b.c") = true := by
    rw [skipped "b.c"]
    exact sorted ▸ List.mem_singleton.mpr rfl
  have same : heldFile.entry.isEquivalent (.ofContent [120] none) = true := by
    simp only [FileEntry.isEquivalent, IndexedFile.entry, heldFile, Cell.agrees_integer,
      Bool.and_eq_true, decide_eq_true_eq, Cell.text.injEq]
    exact ⟨rfl, rfl⟩
  have quiet : told.comparison = ⟨[], [], []⟩ := by
    have listed : pairBuild.index.files.map IndexedFile.entry = [heldFile.entry] := rfl
    have path : heldFile.entry.path = .text "a.c" := rfl
    rw [compared, listed]
    simp [compare, printOf, path, same, known]
  rw [AuditReport.comparison, Comparison.mk.injEq] at quiet
  refine ⟨told, _, Prod.ext found rfl, ?_⟩
  simp [AuditReport.needsRebuild, problems, quiet]

/-- A build after an audit that had nothing to tell gives the index that was there. -/
theorem pairShelf_builds_again :
    ∃ report after told last tables again final next,
      (pairCall (pairDisk [120] [34, 120])).run = (.ok report, after) ∧
      (audit (pairCall (pairDisk [120] [34, 120])).settings (.ofString "/")).run
        (pairCall (pairShelf [120] [34] pairTables)).world = (.ok told, last) ∧
      Store.contentAt (pairShelf [120] [34] pairTables) bare.path = .ok (.tables tables) ∧
      (pairCall (pairShelf [120] [34] pairTables)).run = (.ok again, final) ∧
      Store.contentAt final.disk bare.path = .ok (.tables next) ∧ next.SameIndex tables := by
  obtain ⟨report, after, returned, skipped, disk, _⟩ := pairCall_run
  obtain ⟨told, last, audited, calm⟩ := pairShelf_calm [34]
  have quote : Lexer.tokenize [34] = .error ⟨.unterminatedString, 0, 1, 1, none⟩ :=
    (Lexer.tokenize_encode ['\x22']).trans (by cbv)
  have untouched : bare.Untouched after.disk
      (pairCall (pairShelf [120] [34] pairTables)).world.disk := by
    rw [disk]
    exact pairShelf_untouched ..
  have dormant : ∀ files, view (pairCall (pairDisk [120] [34, 120])).settings (.ofString "/")
      bare.directory (pairShelf [120] [34] pairTables) = .ok files →
      Dormant 4 (report.skipped.map SkippedFile.path) files := by
    intro files seen path content member listed _
    cases (pairShelf_view [120] [34] pairTables).symm.trans seen
    rw [skipped] at member
    cases List.mem_singleton.mp member
    have held : content = [34] := by simpa [quoteSkipped] using listed
    exact ⟨_, held ▸ quote⟩
  have measured : ∀ readings, (pairCall (pairShelf [120] [34] pairTables)).readings bare =
      .ok readings → Measured readings.sources := by
    have looked (tables : Tables) : pairPaths.mapM (Discovery.readOne (pairShelf [120] [34] tables)
        (.ofString "/") 4) = .ok [.source wordHeld, .source ⟨"b.c", [34], some 0⟩] := by cbv
    intro readings read
    cases (pairShelf_readings (looked pairTables)).symm.trans read
    simp only [Measured, Discovery.Readings.ofOutcomes]
    decide
  obtain ⟨tables, again, final, next, content, ran, installed, same⟩ :=
    build_after_all_clear (pairCall_placed _) rfl ⟨_, rfl⟩
      (pairDisk_writable [120] [34, 120]).isFresh returned
      (pairCall_placed (pairShelf [120] [34] pairTables)) untouched (pairShelf_wellNamed ..)
      (Disk.isDir_root _) audited calm dormant measured (pairShelf_writable ..)
  exact ⟨report, after, told, last, tables, again, final, next, returned, audited, content, ran,
    installed, same⟩

def emptyHeld : SourceFile := ⟨"b.c", [], some 0⟩

def emptyFile : IndexedFile := ⟨1, "b.c", .ofContent [] (some 0), [], []⟩

def revivedBuild : BuildResult := ⟨⟨[heldFile, emptyFile], .ofFiles [heldFile, emptyFile]⟩, 1, []⟩

theorem revivedBuild_fitting : Fitting revivedBuild.index where
  paths := by decide
  fileNumbers := by decide
  tokenNumbers := by decide
  words := by simp only [Blob.IsWord]; decide

theorem outcome_wordHeld {reader : Reader} (agrees : reader.Agrees pairBuild.index.reader) :
    Build.outcome (some reader) wordHeld =
      .ok ⟨wordHeld, .ofContent [120] (some 0), .found [wordAt 0], .ok [wordAt 0]⟩ := by
  have word : Build.reuse (some reader) "a.c" (.ofContent [120] (some 0)) =
      .ok (.found [wordAt 0]) :=
    reuse_of_agrees agrees pairBuild_storable.fitting pairBuild_storable.dense
      (List.mem_singleton.mpr rfl) (by simp [FileEntry.isEquivalent, IndexedFile.entry, heldFile])
  rw [Build.outcome, wordHeld, word]
  rfl

theorem buildIndex_revived {reader : Reader} (agrees : reader.Agrees pairBuild.index.reader) :
    buildIndex (some reader) [wordHeld, emptyHeld] = .ok revivedBuild := by
  have sorted : Build.order [wordHeld, emptyHeld] = .ok [wordHeld, emptyHeld] :=
    Build.order_of_ascending (by decide) (by decide)
  have empty : Lexer.tokenize [] = .ok [] := by cbv
  have other : Build.reuse (some reader) "b.c" (.ofContent [] (some 0)) = .ok .absent :=
    reuse_of_unlisted agrees (by decide) _
  have second : Build.outcome (some reader) emptyHeld =
      .ok ⟨emptyHeld, .ofContent [] (some 0), .absent, .ok []⟩ := by
    rw [Build.outcome, emptyHeld, other, ok_bind]
    simp only [empty]
    rfl
  rw [buildIndex_of_order sorted, List.mapM_cons, outcome_wordHeld agrees, ok_bind,
    List.mapM_cons, second]
  rfl

/-- A file that was skipped and could be indexed now goes unnoticed: the audit has nothing to tell, yet
a build gives another index. -/
theorem revived_file_goes_unnoticed :
    ∃ report after told last tables again final next,
      (pairCall (pairDisk [120] [34, 120])).run = (.ok report, after) ∧
      bare.Untouched after.disk (pairShelf [120] [] pairTables) ∧
      (audit (pairCall (pairDisk [120] [34, 120])).settings (.ofString "/")).run
        (pairCall (pairShelf [120] [] pairTables)).world = (.ok told, last) ∧
      told.needsRebuild = false ∧
      Store.contentAt (pairShelf [120] [] pairTables) bare.path = .ok (.tables tables) ∧
      (pairCall (pairShelf [120] [] pairTables)).run = (.ok again, final) ∧
      Store.contentAt final.disk bare.path = .ok (.tables next) ∧ ¬ next.SameIndex tables := by
  obtain ⟨report, after, returned, _, disk, leaves⟩ := pairCall_run
  obtain ⟨told, last, audited, calm⟩ := pairShelf_calm []
  have untouched : bare.Untouched after.disk (pairShelf [120] [] pairTables) := by
    rw [disk]
    exact pairShelf_untouched ..
  have looked (tables : Tables) : pairPaths.mapM (Discovery.readOne (pairShelf [120] [] tables)
      (.ofString "/") 4) = .ok [.source wordHeld, .source emptyHeld] := by cbv
  obtain ⟨kept, _, fitting, same⟩ := leaves.tables_eq
  have opened : ((openPrevious bare).run (pairCall (pairShelf [120] [] pairTables)).world).1 = _ :=
    openPrevious_of_load (untouched.load_eq.trans (leaves.load fitting same).2)
  have built := buildIndex_revived (leaves.agrees untouched fitting same)
  have ready := prepared_eq_ok.mpr ⟨pairShelf_readings (looked pairTables), _, opened, built⟩
  have none_ : skippedRows (byPath ([] ++ revivedBuild.skipped)) = .ok [] := by
    rw [show byPath ([] ++ revivedBuild.skipped) = [] from List.mergeSort_nil]
    rfl
  have encoded : Artifact.encode (bare.draft (pairCall (pairShelf [120] [] pairTables)).details.nonce)
      revivedBuild.index (byPath ([] ++ revivedBuild.skipped))
      (pairCall (pairShelf [120] [] pairTables)).details.root
      (pairCall (pairShelf [120] [] pairTables)).details.created = _ :=
    revivedBuild_fitting.encode none_ (pairCall_rooted _) _ _
  have writable := pairShelf_writable [120] [] pairTables
  obtain ⟨final, written, ran⟩ := Call.run_eq_ok (pairCall_placed _) ready writable encoded
  have installed := (writable.save_eq encoded).2.contentAt_eq
  rw [← written] at installed
  refine ⟨report, after, told, last, pairTables, _, final, _, returned, untouched, audited, calm,
    untouched.content.trans leaves.content, ran, installed, ?_⟩
  intro unchanged
  have rows := congrArg (Option.map List.length) unchanged.files
  contradiction

end Service

end TokenSearch
