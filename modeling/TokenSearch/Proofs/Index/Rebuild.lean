import TokenSearch.Index.Build
import TokenSearch.Proofs.Data.Result
import TokenSearch.Proofs.Index.Merge
import TokenSearch.Proofs.Table.Cell

namespace TokenSearch

/-! A build that takes tokens from an earlier index gives what a build from scratch gives, as long as
the earlier index has the tokens of the contents that it tells of. -/

open Data

/-- No two of the contents have the same size and digest. -/
def Apart (contents : List Bytes) : Prop :=
  ∀ a ∈ contents, ∀ b ∈ contents,
    Fingerprint.ofContent a none = Fingerprint.ofContent b none → a = b

/-- The entry of a file tells of its content, and of no other. -/
theorem isEquivalent_entry {contents : List Bytes} (apart : Apart contents) {file : IndexedFile}
    {modified : Option Int} (printed : file.fingerprint = .ofContent file.source modified)
    (indexed : file.source ∈ contents) {content : Bytes} (known : content ∈ contents)
    (time : Option Int) :
    file.entry.isEquivalent (.ofContent content time) = true ↔ file.source = content := by
  simp only [FileEntry.isEquivalent, IndexedFile.entry, Cell.agrees_integer, Bool.and_eq_true,
    decide_eq_true_eq, Cell.text.injEq]
  rw [printed]
  constructor
  · rintro ⟨size, digest⟩
    apply apart _ indexed _ known
    rw [Fingerprint.ofContent, Fingerprint.ofContent, Fingerprint.mk.injEq]
    exact ⟨size, digest, rfl⟩
  · rintro rfl
    exact ⟨rfl, rfl⟩

theorem isEquivalent_source {file : IndexedFile} {modified : Option Int}
    (printed : file.fingerprint = .ofContent file.source modified) (time : Option Int) :
    file.entry.isEquivalent (.ofContent file.source time) = true := by
  have single : Apart [file.source] := by
    intro a first b second _
    rw [List.mem_singleton.mp first, List.mem_singleton.mp second]
  exact (isEquivalent_entry single printed (List.mem_singleton_self _) (List.mem_singleton_self _)
    time).mpr rfl

/-- Files that were lexed from some of the contents, and numbered. -/
structure Index.Lexed (contents : List Bytes) (files : List IndexedFile) : Prop where
  dense : Index.Dense files
  known : ∀ file ∈ files, file.source ∈ contents
  printed : ∀ file ∈ files,
    file.fingerprint = .ofContent file.source file.fingerprint.modified
  lexed : ∀ file ∈ files, Lexer.tokenize file.source = .ok file.tokens

/-- Whatever tokens a reader still has for one of the contents, they are the tokens of that
content. -/
def Reader.Faithful (reader : Reader) (contents : List Bytes) : Prop :=
  ∀ path content modified tokens, content ∈ contents →
    Build.reuse (some reader) path (.ofContent content modified) = .ok (.found tokens) →
      Lexer.tokenize content = .ok tokens

namespace Build

variable {contents : List Bytes} {previous : Option Reader} {sources : List SourceFile}

def scratch (source : SourceFile) : Outcome where
  source := source
  fingerprint := .ofContent source.content source.modified
  reuse := .absent
  tokens := (Lexer.tokenize source.content).mapError (fun error => error.withPath source.path)

def Outcome.forget (outcome : Outcome) : Outcome := { outcome with reuse := .absent }

/-- Tokens are taken from an entry of the same content, all of whose tokens can still be read. -/
theorem of_reuse_found {reader : Reader} {path : String} {fingerprint : Fingerprint}
    {tokens : List Token} (reused : reuse (some reader) path fingerprint = .ok (.found tokens)) :
    ∃ entry seen, entryOf? reader path = some entry ∧ entry.isEquivalent fingerprint = true ∧
      reader.window entry.id 0 entry.tokenCount.ceiling = .ok seen ∧
      entry.tokenCount.agrees (.integer seen.length) = true ∧
      seen.mapM SeenToken.token? = some tokens := by
  simp only [reuse] at reused
  split at reused
  · simp at reused
  · rename_i entry listed
    split at reused
    · rename_i same
      split at reused
      · rename_i seen read
        split at reused
        · rename_i complete
          split at reused
          · rename_i found restored
            cases reused
            exact ⟨entry, seen, listed, same, read, complete, restored⟩
          · simp at reused
        · simp at reused
      · simp at reused
      · simp at reused
      · simp at reused
    · simp at reused

theorem reuse_of_complete {reader : Reader} {path : String} {fingerprint : Fingerprint}
    {entry : FileEntry} {seen : List SeenToken} (listed : entryOf? reader path = some entry)
    (same : entry.isEquivalent fingerprint = true)
    (read : reader.window entry.id 0 entry.tokenCount.ceiling = .ok seen)
    (complete : entry.tokenCount.agrees (.integer seen.length) = true) :
    reuse (some reader) path fingerprint =
      .ok (match seen.mapM SeenToken.token? with
        | some tokens => .found tokens
        | none => .restated) := by
  simp only [reuse, listed, same, read, complete, if_true]
  cases seen.mapM SeenToken.token? <;> rfl

theorem outcome_none (source : SourceFile) : outcome none source = .ok (scratch source) := rfl

/-- Tokens that are taken for a source from an earlier index are the tokens of its content. -/
def Honest (previous : Option Reader) (source : SourceFile) : Prop :=
  ∀ tokens, reuse previous source.path (.ofContent source.content source.modified) =
    .ok (.found tokens) → Lexer.tokenize source.content = .ok tokens

theorem honest_of_faithful (faithful : ∀ reader, previous = some reader → reader.Faithful contents)
    {source : SourceFile} (known : source.content ∈ contents) : Honest previous source := by
  intro tokens reused
  cases previous with
  | none => simp [reuse] at reused
  | some reader => exact faithful reader rfl _ _ _ _ known reused

/-- Honest tokens have an influence on where the tokens come from, and on nothing else. -/
theorem forget_outcome {source : SourceFile} (honest : Honest previous source) {found : Outcome}
    (returned : outcome previous source = .ok found) : found.forget = scratch source := by
  obtain ⟨kind, reused, returned⟩ := bind_eq_ok.mp returned
  cases returned
  cases kind with
  | found tokens =>
      have lexed := honest tokens reused
      simp only [Outcome.forget, scratch, lexed]
      rfl
  | absent | unreadable | short | restated => rfl

theorem forget_outcomes (honest : ∀ source ∈ sources, Honest previous source)
    {found : List Outcome} (returned : sources.mapM (outcome previous) = .ok found) :
    found.map Outcome.forget = sources.map scratch := by
  induction sources generalizing found with
  | nil =>
      cases returned
      rfl
  | cons source rest ih =>
      obtain ⟨first, others, lexed, later, rfl⟩ := mapM_cons_eq_ok.mp returned
      rw [List.map_cons, List.map_cons, forget_outcome (honest _ List.mem_cons_self) lexed,
        ih (fun other member => honest other (List.mem_cons_of_mem _ member)) later]

@[simp]
theorem indexedFrom_forget (next : Nat) (outcomes : List Outcome) :
    indexedFrom next (outcomes.map Outcome.forget) = indexedFrom next outcomes := by
  induction outcomes generalizing next with
  | nil => rfl
  | cons first rest ih =>
      cases lexed : first.tokens <;> simp [indexedFrom, Outcome.forget, lexed, ih]

@[simp]
theorem skipped_forget (outcomes : List Outcome) :
    (outcomes.map Outcome.forget).filterMap skippedOf = outcomes.filterMap skippedOf := by
  rw [List.filterMap_map]
  rfl

theorem mem_indexedFrom_scratch {next : Nat} {file : IndexedFile}
    (member : file ∈ indexedFrom next (sources.map scratch)) :
    ∃ source ∈ sources, file.source = source.content ∧
      file.fingerprint = .ofContent source.content source.modified ∧
      Lexer.tokenize source.content = .ok file.tokens := by
  induction sources generalizing next with
  | nil => contradiction
  | cons source rest ih =>
      rw [List.map_cons, indexedFrom] at member
      cases lexed : Lexer.tokenize source.content with
      | error error =>
          simp only [scratch, lexed, error_mapError] at member
          obtain ⟨other, inside, told⟩ := ih member
          exact ⟨other, List.mem_cons_of_mem _ inside, told⟩
      | ok tokens =>
          simp only [scratch, lexed, ok_mapError, List.mem_cons] at member
          rcases member with rfl | later
          · exact ⟨source, List.mem_cons_self, rfl, rfl, lexed⟩
          · obtain ⟨other, inside, told⟩ := ih later
            exact ⟨other, List.mem_cons_of_mem _ inside, told⟩

theorem id_indexedFrom {next place : Nat} {outcomes : List Outcome} {file : IndexedFile}
    (held : (indexedFrom next outcomes)[place]? = some file) : file.id = (next + place : Nat) := by
  induction outcomes generalizing next place with
  | nil => simp [indexedFrom] at held
  | cons first rest ih =>
      rw [indexedFrom] at held
      cases lexed : first.tokens with
      | error error =>
          rw [lexed] at held
          exact ih held
      | ok tokens =>
          rw [lexed] at held
          cases place with
          | zero =>
              cases held
              rfl
          | succ place =>
              rw [ih held]
              congr 1
              omega

theorem dense_indexedFrom (outcomes : List Outcome) : Index.Dense (indexedFrom 0 outcomes) := by
  intro place file held
  rw [id_indexedFrom held, Nat.zero_add]

theorem partitions_indexedFrom (next : Nat) (outcomes : List Outcome) :
    outcomes.filterMap partitionOf =
      (indexedFrom next outcomes).map (fun file => Partition.ofTokens file.tokens) := by
  induction outcomes generalizing next with
  | nil => rfl
  | cons first rest ih =>
      rw [indexedFrom]
      cases lexed : first.tokens with
      | error error => rw [List.filterMap_cons_none (by rw [partitionOf, lexed]), ih]
      | ok tokens =>
          rw [List.filterMap_cons_some (by rw [partitionOf, lexed]), List.map_cons, ih (next + 1)]

/-- A build gives its files with their posting lists. -/
theorem resultOf_eq (outcomes : List Outcome) :
    resultOf outcomes = ⟨⟨indexedFrom 0 outcomes, .ofFiles (indexedFrom 0 outcomes)⟩,
      (outcomes.filter Outcome.isReused).length, outcomes.filterMap skippedOf⟩ := by
  rw [resultOf, partitions_indexedFrom 0, Index.merge_eq_ofFiles (dense_indexedFrom outcomes)]

theorem mem_order {ordered : List SourceFile} (found : order sources = .ok ordered)
    {source : SourceFile} (member : source ∈ ordered) :
    ∃ given ∈ sources, source = { given with path := normalizePath given.path } := by
  obtain ⟨_, _, found⟩ := bind_eq_ok.mp found
  cases found
  rw [List.mem_mergeSort] at member
  obtain ⟨given, inside, same⟩ := List.mem_map.mp member
  exact ⟨given, inside, same.symm⟩

theorem lexed_scratch (known : ∀ source ∈ sources, source.content ∈ contents) :
    Index.Lexed contents (indexedFrom 0 (sources.map scratch)) where
  dense := dense_indexedFrom _
  known := by
    intro file member
    obtain ⟨source, inside, same, _, _⟩ := mem_indexedFrom_scratch member
    exact same ▸ known source inside
  printed := by
    intro file member
    obtain ⟨source, _, same, printed, _⟩ := mem_indexedFrom_scratch member
    rw [printed, same]
    rfl
  lexed := by
    intro file member
    obtain ⟨source, _, same, _, lexed⟩ := mem_indexedFrom_scratch member
    rw [same, lexed]

end Build

theorem postings_of_buildIndex {previous : Option Reader} {sources : List SourceFile}
    {result : BuildResult} (built : buildIndex previous sources = .ok result) :
    result.index = ⟨result.index.files, PostingMap.ofFiles result.index.files⟩ := by
  obtain ⟨outcomes, _, built⟩ := bind_eq_ok.mp built
  cases built
  rw [Build.resultOf_eq]

theorem buildIndex_of_order {previous : Option Reader} {sources ordered : List SourceFile}
    (sorted : Build.order sources = .ok ordered) :
    buildIndex previous sources = (do
      let outcomes ← ordered.mapM (Build.outcome previous)
      let files := Build.indexedFrom 0 outcomes
      return ⟨⟨files, .ofFiles files⟩, (outcomes.filter Build.Outcome.isReused).length,
        outcomes.filterMap Build.skippedOf⟩) := by
  rw [buildIndex, Build.outcomes, sorted, ok_bind]
  exact congrArg _ (funext (fun outcomes => congrArg _ (Build.resultOf_eq outcomes)))

theorem order_of_buildIndex {previous : Option Reader} {sources : List SourceFile}
    {result : BuildResult} (built : buildIndex previous sources = .ok result) :
    ∃ ordered, Build.order sources = .ok ordered := by
  obtain ⟨_, found, _⟩ := bind_eq_ok.mp built
  obtain ⟨ordered, sorted, _⟩ := bind_eq_ok.mp found
  exact ⟨ordered, sorted⟩

/-- A build goes through if each of its sources can be looked up in the earlier index. -/
theorem buildIndex_of_reuse {previous : Option Reader} {sources ordered : List SourceFile}
    (sorted : Build.order sources = .ok ordered)
    (known : ∀ source ∈ ordered, ∃ kind, Build.reuse previous source.path
      (.ofContent source.content source.modified) = .ok kind) :
    ∃ result, buildIndex previous sources = .ok result := by
  have each : ∀ source ∈ ordered, ∃ outcome, Build.outcome previous source = .ok outcome := by
    intro source member
    obtain ⟨kind, found⟩ := known source member
    rw [Build.outcome, found, ok_bind]
    exact ⟨_, rfl⟩
  obtain ⟨outcomes, found⟩ := mapM_of_each each
  rw [buildIndex, Build.outcomes, sorted, ok_bind, found, ok_bind]
  exact ⟨_, rfl⟩

theorem buildIndex_none {sources ordered : List SourceFile}
    (sorted : Build.order sources = .ok ordered) :
    buildIndex none sources = .ok (Build.resultOf (ordered.map Build.scratch)) := by
  rw [buildIndex, Build.outcomes, sorted, ok_bind, mapM_ok (fun source _ => Build.outcome_none source)]
  rfl

/-- Where the tokens came from has no influence on what is built. -/
theorem Build.resultOf_forget {ordered : List SourceFile} {outcomes : List Outcome}
    (same : outcomes.map Outcome.forget = ordered.map scratch) :
    (resultOf (ordered.map scratch)).index = (resultOf outcomes).index ∧
      (resultOf (ordered.map scratch)).skipped = (resultOf outcomes).skipped := by
  have files : indexedFrom 0 (ordered.map scratch) = indexedFrom 0 outcomes := by
    rw [← same, indexedFrom_forget]
  constructor
  · simp only [resultOf_eq, files]
  · simp only [resultOf_eq]
    rw [← same, skipped_forget]

/-- What is built with the help of an honest reader is built from scratch as well. Only the number
of files whose tokens were at hand differs. -/
theorem buildIndex_honest {previous : Option Reader} {sources ordered : List SourceFile}
    {result : BuildResult} (sorted : Build.order sources = .ok ordered)
    (honest : ∀ source ∈ ordered, Build.Honest previous source)
    (built : buildIndex previous sources = .ok result) :
    (Build.resultOf (ordered.map Build.scratch)).index = result.index ∧
      (Build.resultOf (ordered.map Build.scratch)).skipped = result.skipped := by
  obtain ⟨outcomes, found, built⟩ := bind_eq_ok.mp built
  cases built
  rw [Build.outcomes, sorted, ok_bind] at found
  exact Build.resultOf_forget (Build.forget_outcomes honest found)

theorem buildIndex_faithful {contents : List Bytes} {previous : Option Reader}
    {sources : List SourceFile} {result : BuildResult}
    (faithful : ∀ reader, previous = some reader → reader.Faithful contents)
    (known : ∀ source ∈ sources, source.content ∈ contents)
    (built : buildIndex previous sources = .ok result) :
    ∃ scratch, buildIndex none sources = .ok scratch ∧ scratch.index = result.index ∧
      scratch.skipped = result.skipped ∧ Index.Lexed contents scratch.index.files := by
  obtain ⟨ordered, sorted⟩ := order_of_buildIndex built
  have knownOrdered : ∀ source ∈ ordered, source.content ∈ contents := by
    intro source member
    obtain ⟨given, inside, rfl⟩ := Build.mem_order sorted member
    exact known given inside
  obtain ⟨index, skipped⟩ := buildIndex_honest sorted
    (fun source member => Build.honest_of_faithful faithful (knownOrdered source member)) built
  exact ⟨_, buildIndex_none sorted, index, skipped, Build.lexed_scratch knownOrdered⟩

end TokenSearch
