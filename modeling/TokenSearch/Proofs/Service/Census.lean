import TokenSearch.Proofs.Artifact.Atomic
import TokenSearch.Proofs.Service.AllClear

namespace TokenSearch

/-! What becomes of the files under a root. A build indexes or skips each of them, once, and the artifact
tells the same as the report. -/

open Data Artifact
open Store (bare)

namespace Discovery

def Reading.name : Reading → String
  | .source file => file.path
  | .skipped file => file.path

/-- The file is not too large, and its content can be read. -/
def Offers (disk : Disk) (limit : Int) (path : Path) (content : Bytes) : Prop :=
  ¬ Oversize disk limit path ∧ disk.read path = .ok content

variable {disk : Disk} {root : Path} {limit : Int} {paths : List Path} {outcomes : List Reading}

theorem names_outcomes (looked : paths.mapM (readOne disk root limit) = .ok outcomes) :
    outcomes.map Reading.name = paths.map (relativeName root) := by
  induction paths generalizing outcomes with
  | nil =>
      cases looked
      rfl
  | cons path rest ih =>
      obtain ⟨outcome, others, read, later, rfl⟩ := mapM_cons_eq_ok.mp looked
      rw [List.map_cons, List.map_cons, ih later]
      cases looked_of_readOne read <;> rfl

/-- The sources and the files that are left out are all files that were looked at, each told once. -/
theorem perm_ofOutcomes (looked : paths.mapM (readOne disk root limit) = .ok outcomes) :
    ((Readings.ofOutcomes outcomes).sources.map SourceFile.path ++
        (Readings.ofOutcomes outcomes).skipped.map SkippedFile.path).Perm
      (paths.map (relativeName root)) := by
  rw [← names_outcomes looked]
  simp only [Readings.ofOutcomes, List.map_filterMap]
  refine perm_of_sides (fun outcome _ => ?_)
  cases outcome with
  | source file => exact .inl ⟨rfl, rfl⟩
  | skipped file => exact .inr ⟨rfl, rfl⟩

end Discovery

namespace Service

open Discovery

/-- Why a file is skipped. -/
inductive Blamed (disk : Disk) (root : Path) (limit : Int) (path : Path) : SkippedFile → Prop
  | tooLarge {words : String} : Oversize disk limit path →
      Blamed disk root limit path ⟨relativeName root path, tooLarge, words, none⟩
  | unreadable {words : String} : ¬ Oversize disk limit path →
      (∀ content, disk.read path ≠ .ok content) →
      Blamed disk root limit path ⟨relativeName root path, unreadable, words, none⟩
  | refused {content : Bytes} {error : LexError} : Offers disk limit path content →
      Lexer.tokenize content = .error error →
      Blamed disk root limit path
        ⟨relativeName root path, Build.lexFailed, error.cause.message, some error.offset⟩

/-- What becomes of a file under a root. -/
inductive Fate (disk : Disk) (root : Path) (limit : Int) (files : List IndexedFile)
    (skipped : List SkippedFile) (path : Path) : Prop
  | skipped {left : SkippedFile} : left ∈ skipped → Blamed disk root limit path left → Fate ..
  | indexed {file : IndexedFile} {tokens : List Token} : file ∈ files →
      file.path = relativeName root path → Offers disk limit path file.source →
      Lexer.tokenize file.source = .ok tokens → Fate ..

/-- Each of the files that were found is indexed or skipped, once, for the reason that is told. -/
structure Census (disk : Disk) (root : Path) (limit : Int) (paths : List Path)
    (files : List IndexedFile) (skipped : List SkippedFile) : Prop where
  distinct : (paths.map (relativeName root)).Nodup
  whole : (files.map IndexedFile.path ++ skipped.map SkippedFile.path).Perm
    (paths.map (relativeName root))
  tooLarge : ∀ path ∈ paths,
    (∃ left ∈ skipped, left.path = relativeName root path ∧ left.reason = tooLarge) ↔
      Oversize disk limit path
  unreadable : ∀ path ∈ paths,
    (∃ left ∈ skipped, left.path = relativeName root path ∧ left.reason = unreadable) ↔
      ¬ Oversize disk limit path ∧ ∀ content, disk.read path ≠ .ok content
  refused : ∀ path ∈ paths, ∀ message offset,
    ⟨relativeName root path, Build.lexFailed, message, offset⟩ ∈ skipped ↔
      ∃ content error, Offers disk limit path content ∧ Lexer.tokenize content = .error error ∧
        message = error.cause.message ∧ offset = some error.offset
  indexed : ∀ path ∈ paths, ∀ content,
    (∃ file ∈ files, file.path = relativeName root path ∧ file.source = content) ↔
      Offers disk limit path content ∧ ∃ tokens, Lexer.tokenize content = .ok tokens
  ascending : (skipped.map SkippedFile.path).Pairwise (· < ·)

section Fates

variable {disk : Disk} {root : Path} {limit : Int} {paths : List Path} {files : List IndexedFile}
  {skipped : List SkippedFile} {path : Path}

theorem Blamed.path_eq {left : SkippedFile} (blamed : Blamed disk root limit path left) :
    left.path = relativeName root path := by
  cases blamed <;> rfl

theorem Fate.blamed (distinct : (files.map IndexedFile.path ++ skipped.map SkippedFile.path).Nodup)
    (fate : Fate disk root limit files skipped path) {left : SkippedFile} (member : left ∈ skipped)
    (named : left.path = relativeName root path) : Blamed disk root limit path left := by
  obtain ⟨_, apart, differ⟩ := List.nodup_append.mp distinct
  cases fate with
  | skipped other blamed =>
      rwa [List.inj_on_of_nodup_map apart member other (named.trans blamed.path_eq.symm)]
  | indexed other same _ _ =>
      exact absurd (same.trans named.symm)
        (differ _ (List.mem_map_of_mem other) _ (List.mem_map_of_mem member))

theorem Fate.accepted (distinct : (files.map IndexedFile.path ++ skipped.map SkippedFile.path).Nodup)
    (fate : Fate disk root limit files skipped path) {file : IndexedFile} (member : file ∈ files)
    (named : file.path = relativeName root path) :
    Offers disk limit path file.source ∧ ∃ tokens, Lexer.tokenize file.source = .ok tokens := by
  obtain ⟨apart, _, differ⟩ := List.nodup_append.mp distinct
  cases fate with
  | skipped other blamed =>
      exact absurd (named.trans blamed.path_eq.symm)
        (differ _ (List.mem_map_of_mem member) _ (List.mem_map_of_mem other))
  | indexed other same offers lexed =>
      rw [List.inj_on_of_nodup_map apart member other (named.trans same.symm)]
      exact ⟨offers, _, lexed⟩

theorem offers_unique {content other : Bytes} (first : Offers disk limit path content)
    (second : Offers disk limit path other) : content = other :=
  Except.ok.inj (first.2.symm.trans second.2)

/-- Fates of files whose names are told apart make a census. -/
theorem census_of_fates (distinct : (paths.map (relativeName root)).Nodup)
    (whole : (files.map IndexedFile.path ++ skipped.map SkippedFile.path).Perm
      (paths.map (relativeName root)))
    (ascending : (skipped.map SkippedFile.path).Pairwise (· < ·))
    (fates : ∀ path ∈ paths, Fate disk root limit files skipped path) :
    Census disk root limit paths files skipped where
  distinct := distinct
  whole := whole
  ascending := ascending
  tooLarge := by
    intro path member
    constructor
    · rintro ⟨left, told, named, reason⟩
      cases (fates path member).blamed (whole.nodup_iff.mpr distinct) told named with
      | tooLarge large => exact large
      | unreadable | refused => simp [Discovery.tooLarge, Discovery.unreadable, Build.lexFailed] at reason
    · intro large
      cases fates path member with
      | skipped told blamed =>
          cases blamed with
          | tooLarge => exact ⟨_, told, rfl, rfl⟩
          | unreadable small => exact absurd large small
          | refused offers => exact absurd large offers.1
      | indexed _ _ offers => exact absurd large offers.1
  unreadable := by
    intro path member
    constructor
    · rintro ⟨left, told, named, reason⟩
      cases (fates path member).blamed (whole.nodup_iff.mpr distinct) told named with
      | unreadable small failed => exact ⟨small, failed⟩
      | tooLarge | refused => simp [Discovery.tooLarge, Discovery.unreadable, Build.lexFailed] at reason
    · rintro ⟨small, failed⟩
      cases fates path member with
      | skipped told blamed =>
          cases blamed with
          | tooLarge large => exact absurd large small
          | unreadable => exact ⟨_, told, rfl, rfl⟩
          | refused offers => exact absurd offers.2 (failed _)
      | indexed _ _ offers => exact absurd offers.2 (failed _)
  refused := by
    intro path member message offset
    constructor
    · intro told
      have blamed := (fates path member).blamed (whole.nodup_iff.mpr distinct) told rfl
      generalize same : (⟨_, _, message, offset⟩ : SkippedFile) = left at blamed
      cases blamed with
      | refused offers lexed =>
          obtain ⟨_, _, rfl, rfl⟩ := SkippedFile.mk.inj same
          exact ⟨_, _, offers, lexed, rfl, rfl⟩
      | tooLarge | unreadable =>
          simp [Discovery.tooLarge, Discovery.unreadable, Build.lexFailed] at same
    · rintro ⟨content, error, offers, lexed, rfl, rfl⟩
      cases fates path member with
      | skipped told blamed =>
          cases blamed with
          | tooLarge large => exact absurd large offers.1
          | unreadable _ failed => exact absurd offers.2 (failed _)
          | refused others refusal =>
              cases offers_unique others offers
              cases lexed.symm.trans refusal
              exact told
      | indexed _ _ others accepted =>
          cases offers_unique others offers
          cases lexed.symm.trans accepted
  indexed := by
    intro path member content
    constructor
    · rintro ⟨file, held, named, rfl⟩
      exact (fates path member).accepted (whole.nodup_iff.mpr distinct) held named
    · rintro ⟨offers, tokens, lexed⟩
      cases fates path member with
      | skipped told blamed =>
          cases blamed with
          | tooLarge large => exact absurd large offers.1
          | unreadable _ failed => exact absurd offers.2 (failed _)
          | refused others refusal =>
              cases offers_unique others offers
              cases lexed.symm.trans refusal
      | indexed held named others _ => exact ⟨_, held, named, offers_unique others offers⟩

end Fates

section Build

variable {disk : Disk} {root : Path} {limit : Int} {paths : List Path} {outcomes : List Reading}
  {previous : Option Reader} {result : BuildResult}

theorem perm_of_build
    (looked : paths.mapM (readOne disk root limit) = .ok outcomes)
    (sorted : Build.order (Readings.ofOutcomes outcomes).sources =
      .ok (Readings.ofOutcomes outcomes).sources)
    (built : buildIndex previous (Readings.ofOutcomes outcomes).sources = .ok result) :
    (result.index.files.map IndexedFile.path ++
        (byPath ((Readings.ofOutcomes outcomes).skipped ++ result.skipped)).map
          SkippedFile.path).Perm (paths.map (relativeName root)) := by
  have shuffled := (List.mergeSort_perm ((Readings.ofOutcomes outcomes).skipped ++ result.skipped)
    (fun a b => decide (a.path ≤ b.path))).trans List.perm_append_comm
  have lexed := perm_of_buildIndex sorted built
  refine ((shuffled.map SkippedFile.path).append_left _).trans ?_
  rw [List.map_append, ← List.append_assoc]
  exact (lexed.append_right _).trans (perm_ofOutcomes looked)

theorem fate_of_build (looked : paths.mapM (readOne disk root limit) = .ok outcomes)
    (sorted : Build.order (Readings.ofOutcomes outcomes).sources =
      .ok (Readings.ofOutcomes outcomes).sources)
    (credible : ∀ source ∈ (Readings.ofOutcomes outcomes).sources,
      Build.Credible previous source)
    (built : buildIndex previous (Readings.ofOutcomes outcomes).sources = .ok result)
    {path : Path} (member : path ∈ paths) :
    Fate disk root limit result.index.files
      (byPath ((Readings.ofOutcomes outcomes).skipped ++ result.skipped)) path := by
  have among {left : SkippedFile}
      (told : left ∈ (Readings.ofOutcomes outcomes).skipped ∨ left ∈ result.skipped) :
      left ∈ byPath ((Readings.ofOutcomes outcomes).skipped ++ result.skipped) :=
    List.mem_mergeSort.mpr (List.mem_append.mpr told)
  obtain ⟨outcome, read⟩ := each_of_mapM looked path member
  have inside := (mem_of_mapM looked).mpr ⟨path, member, read⟩
  cases looked_of_readOne read with
  | tooLarge large =>
      exact .skipped (among (.inl (List.mem_filterMap.mpr ⟨_, inside, rfl⟩))) (.tooLarge large)
  | unreadable small failed =>
      exact .skipped (among (.inl (List.mem_filterMap.mpr ⟨_, inside, rfl⟩)))
        (.unreadable small failed)
  | @source content modified small opened =>
      have given : ⟨relativeName root path, content, some modified⟩ ∈
          (Readings.ofOutcomes outcomes).sources := List.mem_filterMap.mpr ⟨_, inside, rfl⟩
      rcases lexed_or_refused sorted built given (credible _ given) with
        ⟨error, refused, told⟩ | ⟨tokens, accepted, file, held, named, same⟩
      · exact .skipped (among (.inr told)) (.refused ⟨small, opened⟩ refused)
      · simp only at same
        subst same
        exact .indexed held named ⟨small, opened⟩ accepted

end Build

/-- The artifact that a save has left: the file under its name in the directory of the store. It is
opened by its path, unless that needs the link that made way for the file. -/
structure Received (store : Store) (before after : Disk) (tables : Tables) (stored : Stored) :
    Prop where
  deposit : ∃ home entries, (store.prepare before).2.Home store.directory home entries ∧
    Store.Deposit after home tables
  opens : Stored.load store.path (.tables tables) = .ok stored
  reached : store.AvoidsLink before → store.load after = .ok stored ∧
    Store.contentAt after store.path = .ok (.tables tables)

variable {call : Call} {store : Store} {made left : Disk} {readings : Discovery.Readings}
  {previous : Option Stored} {result : BuildResult}

/-- What a build has saved opens as the index and the skipped files of its report. -/
theorem Does.received (does : Does call store made readings previous result left)
    (hasCurrent : call.world.disk.HasCurrent) (fresh : store.Fresh call.world.disk call.details.nonce) :
    ∃ tables stored, Received store call.world.disk left tables stored ∧
      stored.tokenCount = .ok result.index.tokenCount ∧
      (stored.reader (.ok (.tables tables))).Agrees result.index.reader ∧
      stored.skippedFiles (.tables tables) =
        .ok ((byPath (latest (byPath (readings.skipped ++ result.skipped)))).map
          SkippedRow.ofFile) := by
  obtain ⟨home, entries, at_⟩ := does.at_home hasCurrent
  have prepared := congrArg Prod.snd does.prepared
  have there : (store.prepare call.world.disk).2.Home store.directory home entries := prepared ▸ at_
  obtain ⟨tables, written⟩ := does.written fresh at_
  obtain ⟨_, _, _, _, _, fitting⟩ := tables_of_encode written.encoded
  obtain ⟨ordered, sorted⟩ := order_of_buildIndex does.built
  have accounts := accounts_of_buildIndex sorted does.built
  have countable : Countable result.index := by
    rw [accounts.postings]
    exact countable_ofFiles accounts.dense fitting.fileNumbers
  obtain ⟨stored, opens, _, counts, agrees, told⟩ :=
    Store.opens_of_encode written.encoded accounts.dense countable store.path
  refine ⟨tables, stored, ⟨⟨home, entries, there, ?_⟩, opens, ?_⟩, counts, agrees, told⟩
  · rw [written.left]
    exact Store.deposit_saved at_ _ tables
  · intro avoids
    have firm := Store.firm_of_avoidsLink avoids there written.slot
    rw [prepared] at firm
    have installed := written.installed firm
    exact ⟨installed.load_eq.trans opens, installed.contentAt_eq⟩

theorem latest_of_ascending {skipped : List SkippedFile}
    (ascending : (skipped.map SkippedFile.path).Pairwise (· < ·)) :
    byPath (latest skipped) = skipped := by
  rw [latest, @keep_distinct _ [] (nodup_of_ascending ascending), List.nil_append]
  refine List.mergeSort_of_pairwise ?_
  exact (List.pairwise_map.mp ascending).imp (fun less => decide_eq_true (Std.le_of_lt less))

/-- A build that finds its files itself and returns has indexed or skipped each of them, once, and the
artifact that it leaves tells what the report tells. Where tokens are taken from the artifact that was
there before, they must be those of a content that the lexer accepts. -/
theorem build_accounts_for_files {report : BuildReport} {after : World}
    (placed : call.settings.indexDirOf call.world.home call.root = .ok store.directory)
    (discovers : call.sources = none) (hasCurrent : call.world.disk.HasCurrent)
    (wellNamed : WellNamed call.settings call.root store.directory call.world.disk)
    (fresh : store.Fresh call.world.disk call.details.nonce)
    (credible : ∀ readings stored, call.readings store = .ok readings →
      store.load call.world.disk = .ok stored → ∀ source ∈ readings.sources,
        Build.Credible (some (freshReader call.world.disk stored)) source)
    (returned : call.run = (.ok report, after)) :
    ∃ paths files tables stored,
      filesUnder call.settings call.root store.directory call.world.disk = .ok paths ∧
      Census call.world.disk call.root call.settings.maxFileBytes paths files report.skipped ∧
      Received store call.world.disk after.disk tables stored ∧
      stored.entries = files.map IndexedFile.entry ∧
      (∀ file ∈ files, stored.source (.tables tables) file.id = .ok file.source) ∧
      report.filesIndexed = stored.entries.length ∧
      stored.tokenCount = .ok report.tokensIndexed ∧
      stored.skippedFiles (.tables tables) = .ok (report.skipped.map SkippedRow.ofFile) := by
  obtain ⟨made, readings, previous, result, does, rfl⟩ := Call.does placed returned
  have read := does.read
  rw [Call.readings, discovers] at read
  obtain ⟨_, paths, outcomes, found, looked, rfl⟩ := gather_eq_ok.mp read
  have listed := wellNamed.listed found
  have sorted := order_ofOutcomes listed looked
  have distinct := nodup_of_ascending listed.ascending
  have whole := perm_of_build looked sorted does.built
  have ascending : ((byPath ((Readings.ofOutcomes outcomes).skipped ++ result.skipped)).map
      SkippedFile.path).Pairwise (· < ·) := by
    refine ascending_mergeSort SkippedFile.path ?_
    have apart := (List.nodup_append.mp (whole.nodup_iff.mpr distinct)).2.1
    exact ((List.mergeSort_perm _ _).map _).nodup_iff.mp apart
  have trusted : ∀ source ∈ (Readings.ofOutcomes outcomes).sources,
      Build.Credible (previous.map (freshReader call.world.disk)) source := by
    rcases of_openPrevious does.opened with rfl | ⟨stored, rfl, loaded⟩
    · intro source _ tokens reused
      cases reused
    · exact credible _ stored does.read loaded
  have census := census_of_fates distinct whole ascending
    (fun path member => fate_of_build looked sorted trusted does.built member)
  obtain ⟨tables, stored, received, counts, agrees, told⟩ := does.received hasCurrent fresh
  have entries : stored.entries = result.index.files.map IndexedFile.entry := agrees.entries
  have dense := (accounts_of_buildIndex sorted does.built).dense
  refine ⟨paths, result.index.files, tables, stored, found, census, received, entries, ?_, ?_, counts,
    ?_⟩
  · intro file member
    obtain ⟨place, held⟩ := List.getElem?_of_mem member
    have known := (List.getElem?_eq_some_iff.mp held).1
    have number := dense place file held
    have same := agrees.source place (Int.natCast_nonneg _) (by
      simpa [Index.reader, Index.entries] using known)
    rw [number]
    refine Eq.trans same ?_
    simp only [Index.reader, Index.file, at?_natCast, held]
    rfl
  · rw [entries, List.length_map]
    rfl
  · rw [told, latest_of_ascending ascending]
    rfl

theorem pairShelf_load (first second : Bytes) {index : Index} (rows : List SkippedRow)
    (countable : Countable index) (dense : Index.Dense index.files) :
    bare.load (pairShelf first second (tablesOf index rows "/" "")) =
      .ok (storedOf index "/" "" bare.path) := by
  have present (tables : Tables) : bare.isPresent (pairShelf first second tables) = .ok true := by
    cbv
  rw [Store.load, present, ok_bind, if_pos rfl, pairShelf_content, ok_bind]
  exact countable.load dense rfl rfl rfl bare.path

theorem pairShelf_agrees (first second : Bytes) {index : Index} (rows : List SkippedRow)
    (fitting : Fitting index) (dense : Index.Dense index.files) :
    (freshReader (pairShelf first second (tablesOf index rows "/" ""))
      (storedOf index "/" "" bare.path)).Agrees index.reader := by
  rw [freshReader, path_storedOf, pairShelf_content]
  exact fitting.agrees dense rfl rfl rfl

def pairAgain : BuildResult := ⟨pairBuild.index, 1, pairBuild.skipped⟩

theorem buildIndex_pair_again {reader : Reader} (agrees : reader.Agrees pairBuild.index.reader) :
    buildIndex (some reader) [wordHeld, quoteHeld] = .ok pairAgain := by
  have sorted : Build.order [wordHeld, quoteHeld] = .ok [wordHeld, quoteHeld] :=
    Build.order_of_ascending (by decide) (by decide)
  have other : Build.reuse (some reader) "b.c" (.ofContent [34, 120] (some 0)) = .ok .absent :=
    reuse_of_unlisted agrees (by decide) _
  have second : Build.outcome (some reader) quoteHeld = .ok ⟨quoteHeld,
      .ofContent [34, 120] (some 0), .absent,
      .error ⟨.unterminatedString, 0, 1, 1, some "b.c"⟩⟩ := by
    rw [Build.outcome, quoteHeld, other, ok_bind]
    simp only [tokenize_quote]
    rfl
  rw [buildIndex_of_order sorted, List.mapM_cons, outcome_wordHeld agrees, ok_bind,
    List.mapM_cons, second]
  rfl

/-- A word is indexed again with the tokens that an earlier build left, and a broken string is told. -/
theorem pairShelf_accounted :
    ∃ report after paths files,
      (pairCall (pairShelf [120] [34, 120] pairTables)).run = (.ok report, after) ∧
      Census (pairShelf [120] [34, 120] pairTables) (.ofString "/") 4 paths files report.skipped ∧
      report.skipped = [quoteSkipped] ∧
      ∃ file ∈ files, file.path = "a.c" ∧ file.source = [120] := by
  have loaded := pairShelf_load [120] [34, 120] [SkippedRow.ofFile quoteSkipped]
    pairBuild_storable.countable pairBuild_storable.dense
  have agrees := pairShelf_agrees [120] [34, 120] [SkippedRow.ofFile quoteSkipped]
    pairBuild_storable.fitting pairBuild_storable.dense
  have looked (tables : Tables) : pairPaths.mapM (Discovery.readOne (pairShelf [120] [34, 120] tables)
      (.ofString "/") 4) = .ok [.source wordHeld, .source quoteHeld] := by cbv
  have read := pairShelf_readings (looked pairTables)
  have ready := prepared_eq_ok.mpr
    ⟨read, _, openPrevious_of_load loaded, buildIndex_pair_again agrees⟩
  have sorted : byPath ([] ++ [quoteSkipped]) = [quoteSkipped] := List.mergeSort_singleton _
  have encoded (disk : Disk) : Artifact.encode (bare.draft (pairCall disk).details.nonce)
      pairBuild.index (byPath ([] ++ [quoteSkipped])) (pairCall disk).details.root
      (pairCall disk).details.created = .ok pairTables := by
    rw [sorted]
    exact pairBuild_storable.encode (pairCall_rooted disk) _ _
  obtain ⟨after, _, returned⟩ :=
    Call.run_eq_ok (pairCall_placed _) ready (pairShelf_writable ..) (encoded _)
  have credible : ∀ readings stored,
      (pairCall (pairShelf [120] [34, 120] pairTables)).readings bare = .ok readings →
      bare.load (pairShelf [120] [34, 120] pairTables) = .ok stored →
      ∀ source ∈ readings.sources, Build.Credible
        (some (freshReader (pairShelf [120] [34, 120] pairTables) stored)) source := by
    intro readings stored found opened source member tokens reused
    cases read.symm.trans found
    cases loaded.symm.trans opened
    rcases List.mem_cons.mp member with rfl | last
    · exact ⟨_, tokenize_word⟩
    · cases List.mem_singleton.mp last
      have unlisted : "b.c" ∉ pairBuild.index.files.map IndexedFile.path := by decide
      cases (reuse_of_unlisted agrees unlisted _).symm.trans reused
  obtain ⟨paths, files, tables, stored, found, census, _⟩ := build_accounts_for_files
    (pairCall_placed (pairShelf [120] [34, 120] pairTables)) rfl ⟨_, rfl⟩ (pairShelf_wellNamed ..)
    (pairShelf_writable ..).isFresh credible returned
  refine ⟨_, after, paths, files, returned, census, sorted, ?_⟩
  cases (pairShelf_paths [120] [34, 120] pairTables).symm.trans found
  have held (tables : Tables) :
      (pairShelf [120] [34, 120] tables).read (.ofString "/a.c") = .ok [120] := by cbv
  have named : relativeName (.ofString "/") (.ofString "/a.c") = "a.c" := rfl
  rw [← named]
  have small : ¬ Oversize (pairShelf [120] [34, 120] pairTables) 4 (.ofString "/a.c") := by
    rw [oversize_iff (held _)]
    decide
  exact (census.indexed (.ofString "/a.c") List.mem_cons_self [120]).mpr
    ⟨⟨small, held _⟩, _, tokenize_word⟩

def plantedFile : IndexedFile := ⟨0, "a.c", .ofContent [34, 120] (some 0), [wordAt 0], [34, 120]⟩

def plantedIndex : Index := ⟨[plantedFile], .ofFiles [plantedFile]⟩

theorem plantedIndex_storable : Storable plantedIndex [] where
  dense := Index.dense_singleton rfl
  paths := by decide
  fileNumbers := by decide
  tokenNumbers := by decide
  words := by simp only [Blob.IsWord]; decide
  fileCount := by decide
  tokenCount := by decide
  postingKeys := by decide
  skippedPaths := by decide
  skippedNumbers := by decide

def plantedTables : Tables := tablesOf plantedIndex [] "/" ""

def brokenHeld : SourceFile := ⟨"a.c", [34, 120], some 0⟩

def plantedBuild : BuildResult := ⟨⟨[plantedFile, emptyFile], .ofFiles [plantedFile, emptyFile]⟩, 1, []⟩

theorem plantedBuild_fitting : Fitting plantedBuild.index where
  paths := by decide
  fileNumbers := by decide
  tokenNumbers := by decide
  words := by simp only [Blob.IsWord]; decide

theorem buildIndex_planted {reader : Reader} (agrees : reader.Agrees plantedIndex.reader) :
    buildIndex (some reader) [brokenHeld, emptyHeld] = .ok plantedBuild := by
  have sorted : Build.order [brokenHeld, emptyHeld] = .ok [brokenHeld, emptyHeld] :=
    Build.order_of_ascending (by decide) (by decide)
  have empty : Lexer.tokenize [] = .ok [] := by cbv
  have taken : Build.reuse (some reader) "a.c" (.ofContent [34, 120] (some 0)) =
      .ok (.found [wordAt 0]) :=
    reuse_of_agrees agrees plantedIndex_storable.fitting plantedIndex_storable.dense
      (List.mem_singleton.mpr rfl)
      (by simp [FileEntry.isEquivalent, IndexedFile.entry, plantedFile])
  have other : Build.reuse (some reader) "b.c" (.ofContent [] (some 0)) = .ok .absent :=
    reuse_of_unlisted agrees (by decide) _
  have first : Build.outcome (some reader) brokenHeld =
      .ok ⟨brokenHeld, .ofContent [34, 120] (some 0), .found [wordAt 0], .ok [wordAt 0]⟩ := by
    rw [Build.outcome, brokenHeld, taken]
    rfl
  have second : Build.outcome (some reader) emptyHeld =
      .ok ⟨emptyHeld, .ofContent [] (some 0), .absent, .ok []⟩ := by
    rw [Build.outcome, emptyHeld, other, ok_bind]
    simp only [empty]
    rfl
  rw [buildIndex_of_order sorted, List.mapM_cons, first, ok_bind, List.mapM_cons,
    second]
  rfl

/-- A file that the lexer refuses is indexed all the same if the artifact that was there before has
tokens for its content. -/
theorem planted_tokens_indexed :
    ∃ report after, (pairCall (pairShelf [34, 120] [] plantedTables)).run = (.ok report, after) ∧
      filesUnder (pairCall (pairShelf [34, 120] [] plantedTables)).settings (.ofString "/")
        bare.directory (pairShelf [34, 120] [] plantedTables) = .ok pairPaths ∧
      ∀ files, ¬ Census (pairShelf [34, 120] [] plantedTables) (.ofString "/") 4 pairPaths files
        report.skipped := by
  have loaded := pairShelf_load [34, 120] [] [] plantedIndex_storable.countable
    plantedIndex_storable.dense
  have agrees := pairShelf_agrees [34, 120] [] [] plantedIndex_storable.fitting
    plantedIndex_storable.dense
  have looked (tables : Tables) : pairPaths.mapM (Discovery.readOne (pairShelf [34, 120] [] tables)
      (.ofString "/") 4) = .ok [.source brokenHeld, .source emptyHeld] := by cbv
  have ready := prepared_eq_ok.mpr ⟨pairShelf_readings (looked plantedTables), _,
    openPrevious_of_load loaded, buildIndex_planted agrees⟩
  have none_ : byPath ([] ++ plantedBuild.skipped) = [] := List.mergeSort_nil
  have told : skippedRows (byPath ([] ++ plantedBuild.skipped)) = .ok [] := by
    rw [none_]
    rfl
  have encoded (disk : Disk) : Artifact.encode (bare.draft (pairCall disk).details.nonce)
      plantedBuild.index (byPath ([] ++ plantedBuild.skipped)) (pairCall disk).details.root
      (pairCall disk).details.created = _ :=
    plantedBuild_fitting.encode told (pairCall_rooted disk) _ _
  obtain ⟨after, _, returned⟩ :=
    Call.run_eq_ok (pairCall_placed _) ready (pairShelf_writable ..) (encoded _)
  refine ⟨_, after, returned, pairShelf_paths .., ?_⟩
  intro files census
  have held (tables : Tables) :
      (pairShelf [34, 120] [] tables).read (.ofString "/a.c") = .ok [34, 120] := by cbv
  have small : ¬ Oversize (pairShelf [34, 120] [] plantedTables) 4 (.ofString "/a.c") := by
    rw [oversize_iff (held _)]
    decide
  have skipped := (census.refused (.ofString "/a.c") List.mem_cons_self _ _).mpr
    ⟨_, _, ⟨small, held _⟩, tokenize_quote, rfl, rfl⟩
  -- By the census, the file that the lexer refuses would have to be among the skipped ones.
  have nothing : (reportOf (.ofString "/") bare.path ⟨[brokenHeld, emptyHeld], []⟩
      plantedBuild).skipped = [] := none_
  exact absurd (nothing ▸ skipped) List.not_mem_nil

end Service

end TokenSearch
