import TokenSearch.Proofs.Artifact.Salvage
import TokenSearch.Proofs.Service.Returned

namespace TokenSearch.Service

/-! Building where a file stands in the place of the artifact that no build may have written. The build
installs what it would install without that file. -/

open Data Artifact
open Store (bare bareDisk)

/-- All tokens that an artifact counts for an unchanged source are the tokens of that source. -/
def Truthful (content : Content) (path : Path) (source : SourceFile) : Prop :=
  ∀ stored, Stored.load path content = .ok stored →
    ∀ entry seen,
      Build.entryOf? (stored.reader (.ok content)) (normalizePath source.path) = some entry →
      entry.isEquivalent (.ofContent source.content source.modified) = true →
      (stored.reader (.ok content)).window entry.id 0 entry.tokenCount.ceiling = .ok seen →
      entry.tokenCount.agrees (.integer seen.length) = true →
        ∃ tokens, Lexer.tokenize source.content = .ok tokens ∧ seen = tokens.map Token.seen

theorem Truthful.honest {content : Content} {path : Path} {source : SourceFile} {stored : Stored}
    (truthful : Truthful content path source) (opened : Stored.load path content = .ok stored) :
    Build.Honest (some (stored.reader (.ok content)))
      { source with path := normalizePath source.path } := by
  intro tokens reused
  obtain ⟨entry, seen, listed, same, read, complete, restored⟩ := Build.of_reuse_found reused
  obtain ⟨lexed, known, rfl⟩ := truthful stored opened entry seen listed same read complete
  rw [mapM_token?_seen] at restored
  cases restored
  exact known

def Call.on (call : Call) (disk : Disk) : Call := { call with world := { call.world with disk } }

/-- Tables with readable counts, or no tables at all, never stop a build. -/
theorem buildIndex_of_measured {store : Store} {world : World} {content : Content}
    (loads : store.load world.disk = Stored.load store.path content)
    (held : Store.contentAt world.disk store.path = .ok content) (measured : content.Measured)
    {sources : List SourceFile} (truthful : ∀ source ∈ sources, Truthful content store.path source)
    {scratch : BuildResult} (built : buildIndex none sources = .ok scratch) :
    ∃ previous result, ((openPrevious store).run world).1 = .ok previous ∧
      buildIndex (previous.map (freshReader world.disk)) sources = .ok result ∧
      result.index = scratch.index ∧ result.skipped = scratch.skipped := by
  cases opened : Stored.load store.path content with
  | error fault =>
      obtain ⟨path, cause, rfl⟩ := CorruptAtWorst.load measured store.path fault opened
      exact ⟨none, scratch, openPrevious_of_corrupt (loads.trans opened), built, rfl, rfl⟩
  | ok stored =>
      obtain ⟨ordered, sorted⟩ := order_of_buildIndex built
      have reader : freshReader world.disk stored = stored.reader (.ok content) := by
        rw [freshReader, path_of_load opened, held]
      have known : ∀ source ∈ ordered, ∃ kind, Build.reuse (some (stored.reader (.ok content)))
          source.path (.ofContent source.content source.modified) = .ok kind :=
        fun source _ => reuse_of_measured measured opened source.path _
      have honest : ∀ source ∈ ordered,
          Build.Honest (some (stored.reader (.ok content))) source := by
        intro source member
        obtain ⟨given, inside, rfl⟩ := Build.mem_order sorted member
        exact (truthful given inside).honest opened
      obtain ⟨result, found⟩ := buildIndex_of_reuse sorted known
      obtain ⟨index, skipped⟩ := buildIndex_honest sorted honest found
      rw [buildIndex_none sorted] at built
      cases built
      refine ⟨some stored, result, openPrevious_of_load (loads.trans opened), ?_, index.symm,
        skipped.symm⟩
      rw [Option.map_some, reader]
      exact found

/-- A build recovers from any file in the place of the artifact that can be read: if it returns where
that file is removed, it returns as well where the file is left, and installs the same tables. -/
theorem build_recovers {call : Call} {store : Store} {without : Disk} {home : List Text.RawText}
    {entries : Disk.Entries} {serial : Nat} {content : Content} {readings : Discovery.Readings} {report : BuildReport}
    {after : World} (placed : call.settings.indexDirOf call.world.home call.root = .ok store.directory)
    (cleared : store.Cleared call.world.disk without home entries serial)
    (fresh : entries.get? (Store.draftName call.details.nonce) = none)
    (read : call.readings store = .ok readings)
    (readWithout : (call.on without).readings store = .ok readings)
    (readable : (call.world.disk.body serial).content? = some content) (measured : content.Measured)
    (truthful : ∀ source ∈ readings.sources, Truthful content store.path source)
    (returned : (call.on without).run = (.ok report, after)) :
    ∃ reused last tables, call.run = (.ok { report with filesReused := reused }, last) ∧
      Store.contentAt after.disk store.path = .ok (.tables tables) ∧
      Store.contentAt last.disk store.path = .ok (.tables tables) := by
  have unused : (entries.erase Store.fileName).get? (Store.draftName call.details.nonce) = none := by
    rw [Disk.Entries.get?_erase_of_ne _ (Store.draftName_ne _), fresh]
  obtain ⟨others, nothing, scratch, tables, leaves, begins, rfl⟩ := @Call.leaves (call.on without) _ _ _ _
    _ _ placed (Store.Home.prepared cleared.home_eq cleared.without_eq.2) cleared.home_eq
    (cleared.gone ▸ .none) unused returned
  cases readWithout.symm.trans leaves.read
  cases leaves.opened.symm.trans (openPrevious_of_missing cleared.load_without)
  obtain ⟨writable, occupied⟩ := cleared.writable fresh begins
  obtain ⟨previous, result, opened, found, index, skipped⟩ :=
    buildIndex_of_measured (occupied.load_eq readable) (occupied.contentAt_eq readable) measured
      truthful leaves.built
  have ready := prepared_eq_ok.mpr ⟨read, previous, opened, found⟩
  obtain ⟨last, disk, ran⟩ := Call.run_eq_ok placed ready writable
    (by rw [index, skipped]; exact leaves.encoded)
  refine ⟨result.reused, last, tables, ?_, leaves.content, ?_⟩
  · rw [ran, reportOf, reportOf, index, skipped]
    rfl
  · have installed := (writable.save_eq leaves.encoded).2
    rw [disk]
    exact installed.contentAt_eq

def unshelved (tables : Tables) : Disk := ⟨.nil, [], [(0, ⟨.artifact tables, 0⟩)], 1, default⟩

theorem unshelved_writable (tables : Tables) :
    bare.Writable (unshelved tables) "0" (unshelved tables) [] .nil :=
  Store.bare_writable .none rfl

theorem shelved_cleared (tables : Tables) : bare.Cleared (shelved tables) (unshelved tables) []
    (.cons (.ofString Store.fileName) (.file 0) .nil) 0 where
  at_ := (shelved_installed tables).at_
  held := (shelved_installed tables).held
  removed := by cbv
  gone := by cbv

theorem wordCall_unshelved (tables : Tables) :
    ∃ report after, (wordCall (unshelved tables)).run = (.ok report, after) ∧
      Store.contentAt after.disk bare.path = .ok (.tables wordTables) := by
  have opened : ((openPrevious bare).run (wordCall (unshelved tables)).world).1 = .ok none :=
    openPrevious_of_missing (shelved_cleared tables).load_without
  obtain ⟨report, after, ran, left⟩ := wordCall_run (unshelved_writable tables) opened rfl (.inl rfl)
  have writes := ((unshelved_writable tables).save_eq (wordCall_encode (unshelved tables))).2
  refine ⟨report, after, ran, ?_⟩
  rw [left]
  exact writes.contentAt_eq

theorem lostTables_truthful : Truthful (.tables lostTables) bare.path wordSource := by
  intro stored opened entry seen listed same read complete
  have named : normalizePath wordSource.path = "a.c" := by cbv
  have lost := reuse_lostTables
  change entry.isEquivalent (.ofContent [120] none) = true at same
  rw [← (shelved_installed lostTables).load_eq, load_lostTables] at opened
  cases opened
  rw [freshReader, path_storedOf, (shelved_installed lostTables).contentAt_eq, ← named,
    Build.reuse_of_complete listed same read complete, Except.ok.injEq] at lost
  split at lost <;> contradiction

/-- A build where the token rows of the artifact are lost installs what it installs without them. -/
theorem wordCall_recovers :
    ∃ reused report after last, (wordCall (unshelved lostTables)).run = (.ok report, after) ∧
      (wordCall (shelved lostTables)).run = (.ok { report with filesReused := reused }, last) ∧
      Store.contentAt (shelved lostTables) bare.path = .ok (.tables lostTables) ∧
      Store.contentAt last.disk bare.path = .ok (.tables wordTables) := by
  obtain ⟨report, after, returned, content⟩ := wordCall_unshelved lostTables
  have measured : (Content.tables lostTables).Measured := by
    intro tables held
    cases held
    have whole := measured_tablesOf wordBuild_storable.fileNumbers [] "/" ""
    exact ⟨whole.header, whole.files, whole.integers⟩
  have truthful : ∀ source ∈ [wordSource],
      Truthful (.tables lostTables) bare.path source := by
    intro source member
    cases List.mem_singleton.mp member
    exact lostTables_truthful
  obtain ⟨reused, last, tables, ran, same, restored⟩ := build_recovers
    (wordCall_fits (shelved_writable lostTables)).placed (shelved_cleared lostTables)
    (shelved_writable lostTables).fresh rfl rfl rfl measured truthful returned
  cases content.symm.trans same
  exact ⟨reused, report, after, last, returned, ran, (shelved_installed lostTables).contentAt_eq,
    restored⟩

def forgedFile : IndexedFile := { wordFile with tokens := [{ wordAt 0 with text := "y" }] }

def forgedBuild : BuildResult := ⟨⟨[forgedFile], .ofFiles [forgedFile]⟩, 1, []⟩

theorem forgedBuild_storable : Storable forgedBuild.index [] where
  dense := Index.dense_singleton rfl
  paths := by decide
  fileNumbers := by decide
  tokenNumbers := by decide
  words := by simp only [Blob.IsWord]; decide
  fileCount := by decide
  tokenCount := by decide
  postingKeys := by decide
  skippedPaths := by decide
  skippedNumbers := by decide

def forgedTables : Tables := tablesOf forgedBuild.index [] "/" ""

theorem load_forgedTables :
    bare.load (shelved forgedTables) = .ok (storedOf forgedBuild.index "/" "" bare.path) := by
  rw [(shelved_installed forgedTables).load_eq]
  exact forgedBuild_storable.countable.load forgedBuild_storable.dense rfl rfl rfl bare.path

theorem reuse_forgedTables :
    Build.reuse (some (freshReader (shelved forgedTables)
      (storedOf forgedBuild.index "/" "" bare.path))) "a.c" (.ofContent [120] none) =
        .ok (.found forgedFile.tokens) := by
  have listed (content : Except Fault Content) :
      Build.entryOf? ((storedOf forgedBuild.index "/" "" bare.path).reader content) "a.c" =
        some forgedFile.entry := rfl
  have same : forgedFile.entry.isEquivalent (.ofContent [120] none) = true := by
    simp [FileEntry.isEquivalent, IndexedFile.entry, forgedFile, wordFile]
  have read := @window_tokens (storedOf forgedBuild.index "/" "" bare.path) _
    forgedBuild_storable.dense 0 forgedFile rfl 0 1
  rw [freshReader, path_storedOf, (shelved_installed forgedTables).contentAt_eq,
    Build.reuse_of_complete (listed _) same ((window_reader _ rfl _ _ _).trans read) rfl]
  rfl

/-- Rows that tell of another token, as many as there were, are taken for the tokens of the file. -/
theorem forgedTables_survive :
    ∃ report after otherReport last,
      (shelved forgedTables).remove bare.path = .ok (unshelved forgedTables) ∧
      (wordCall (unshelved forgedTables)).run = (.ok report, after) ∧
      Store.contentAt after.disk bare.path = .ok (.tables wordTables) ∧
      (wordCall (shelved forgedTables)).run = (.ok otherReport, last) ∧
      Store.contentAt last.disk bare.path ≠ .ok (.tables wordTables) := by
  obtain ⟨report, after, returned, content⟩ := wordCall_unshelved forgedTables
  have built : buildIndex (some (freshReader (shelved forgedTables)
      (storedOf forgedBuild.index "/" "" bare.path))) [wordSource] = .ok forgedBuild := by
    have ordered : Build.order [wordSource] = .ok [wordSource] :=
      Build.order_of_ascending (by decide) (by decide)
    rw [buildIndex_of_order ordered, List.mapM_cons, Build.outcome, wordSource,
      reuse_forgedTables]
    rfl
  have ready : prepared (wordCall (shelved forgedTables)).settings
      (wordCall (shelved forgedTables)).root bare (wordCall (shelved forgedTables)).sources
      (wordCall (shelved forgedTables)).world = .ok (⟨[wordSource], []⟩, forgedBuild) :=
    prepared_eq_ok.mpr ⟨rfl, _, openPrevious_of_load load_forgedTables, built⟩
  have encoded (disk : Disk) : Artifact.encode (bare.draft (wordCall disk).details.nonce)
      forgedBuild.index (byPath ([] ++ [])) (wordCall disk).details.root
      (wordCall disk).details.created = .ok forgedTables :=
    encode_unskipped forgedBuild_storable (wordCall_rooted disk) _ _
  have writable := shelved_writable forgedTables
  obtain ⟨last, left, ran⟩ :=
    Call.run_eq_ok (wordCall_fits writable).placed ready writable (encoded _)
  refine ⟨report, after, _, last, (shelved_cleared forgedTables).removed, returned, content, ran, ?_⟩
  rw [left, (writable.save_eq (encoded (shelved forgedTables))).2.contentAt_eq]
  intro same
  have tokens : forgedTables.tokens = wordTables.tokens := by
    rw [Content.tables.inj (Except.ok.inj same)]
  exact absurd tokens (by decide)

end TokenSearch.Service
