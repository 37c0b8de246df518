import Mathlib
import TokenSearch.Proofs.Index.Accounts

namespace TokenSearch

/-! What is built from scratch depends on which sources there are, and on nothing else: each source
that lexes is indexed, each other one is skipped, and both stand in the order of their paths. -/

open Data

def normalPaths (sources : List SourceFile) : List String :=
  sources.map (fun source => normalizePath source.path)

/-- The file that a source becomes. -/
structure IndexedFile.Holds (file : IndexedFile) (source : SourceFile) : Prop where
  path : file.path = normalizePath source.path
  content : file.source = source.content
  fingerprint : file.fingerprint = .ofContent source.content source.modified
  tokens : Lexer.tokenize source.content = .ok file.tokens

/-- What is left of a source that the lexer refuses. -/
def skippedFor (source : SourceFile) (error : LexError) : SkippedFile :=
  ⟨normalizePath source.path, Build.lexFailed, error.cause.message, some error.offset⟩

/-- A result that tells of exactly the given sources. -/
structure BuildResult.Canonical (result : BuildResult) (sources : List SourceFile) : Prop where
  dense : Index.Dense result.index.files
  ascending : (result.index.files.map IndexedFile.path).Pairwise (· < ·)
  held : ∀ file ∈ result.index.files, ∃ source ∈ sources, file.Holds source
  indexed : ∀ source ∈ sources, ∀ tokens, Lexer.tokenize source.content = .ok tokens →
    ∃ file ∈ result.index.files, file.Holds source
  ordered : ∀ identity, (result.index.postingsOf identity).Pairwise (fun a b => a.before b)
  postings : ∀ identity posting, posting ∈ result.index.postingsOf identity ↔
    Occurs (result.index.files.map IndexedFile.tokens) identity posting
  skippedAscending : (result.skipped.map SkippedFile.path).Pairwise (· < ·)
  skipped : ∀ left, left ∈ result.skipped ↔ ∃ source ∈ sources, ∃ error,
    Lexer.tokenize source.content = .error error ∧ left = skippedFor source error
  reused : result.reused = 0

namespace Build

variable {sources others ordered : List SourceFile}

theorem order_of_distinct (distinct : (normalPaths sources).Nodup) :
    ∃ ordered, order sources = .ok ordered := by
  have checked : checkDistinct [] (sources.map
      (fun source => { source with path := normalizePath source.path })) = .ok () := by
    refine checkDistinct_of_distinct (fun _ _ => List.not_mem_nil) ?_
    rw [List.map_map]
    exact distinct
  exact ⟨_, by rw [order, checked, ok_bind]; rfl⟩

theorem checkDistinct_refuses {seen : List String}
    (twice : ¬ (seen ++ sources.map SourceFile.path).Nodup) (apart : seen.Nodup) :
    ∃ path, checkDistinct seen sources = .error (.duplicatePath path) ∧
      1 < (seen ++ sources.map SourceFile.path).count path := by
  induction sources generalizing seen with
  | nil => exact (twice (by simpa using apart)).elim
  | cons source rest ih =>
      by_cases known : source.path ∈ seen
      · refine ⟨source.path, by rw [checkDistinct, if_pos known], ?_⟩
        have earlier := List.count_pos_iff.mpr known
        rw [List.count_append, List.map_cons, List.count_cons_self]
        omega
      · have moved : (source.path :: seen ++ rest.map SourceFile.path).Perm
            (seen ++ (source :: rest).map SourceFile.path) := List.perm_middle.symm
        rw [← moved.nodup_iff] at twice
        obtain ⟨path, refused, again⟩ := ih twice (List.nodup_cons.mpr ⟨known, apart⟩)
        refine ⟨path, by rw [checkDistinct, if_neg known, refused], ?_⟩
        rwa [← moved.count_eq]

theorem order_refuses (twice : ¬ (normalPaths sources).Nodup) :
    ∃ path, order sources = .error (.duplicatePath path) ∧ 1 < (normalPaths sources).count path := by
  have paths : (sources.map (fun source => { source with path := normalizePath source.path })).map
      SourceFile.path = normalPaths sources := List.map_map
  obtain ⟨path, refused, again⟩ := @checkDistinct_refuses (sources.map
    (fun source => { source with path := normalizePath source.path })) []
    (by rwa [List.nil_append, paths]) List.nodup_nil
  rw [List.nil_append, paths] at again
  exact ⟨path, by rw [order, refused]; rfl, again⟩

theorem mem_order_iff (sorted : order sources = .ok ordered) {source : SourceFile} :
    source ∈ ordered ↔
      ∃ given ∈ sources, source = { given with path := normalizePath given.path } := by
  constructor
  · exact mem_order sorted
  · rintro ⟨given, member, rfl⟩
    exact mem_order_of_mem sorted member

def lexes (source : SourceFile) : Bool := (Lexer.tokenize source.content).isOk

theorem indexedFrom_filter (next : Nat) (sources : List SourceFile) :
    indexedFrom next ((sources.filter lexes).map scratch) = indexedFrom next (sources.map scratch) := by
  induction sources generalizing next with
  | nil => rfl
  | cons source rest ih =>
      cases lexed : Lexer.tokenize source.content with
      | error error =>
          have fails : lexes source = false := by simp [lexes, lexed, Except.isOk, Except.toBool]
          rw [List.filter_cons_of_neg (by simp [fails]), ih, List.map_cons, indexedFrom]
          simp only [scratch, lexed, error_mapError]
      | ok tokens =>
          have goes : lexes source = true := by simp [lexes, lexed, Except.isOk, Except.toBool]
          rw [List.filter_cons_of_pos goes, List.map_cons, List.map_cons, indexedFrom, indexedFrom]
          simp only [scratch, lexed, ok_mapError, ih]

theorem skippedOf_scratch {source : SourceFile} {left : SkippedFile} :
    skippedOf (scratch source) = some left ↔ ∃ error, Lexer.tokenize source.content = .error error ∧
      left = ⟨source.path, lexFailed, error.cause.message, some error.offset⟩ := by
  cases lexed : Lexer.tokenize source.content with
  | error error => simp [skippedOf, scratch, lexed, error_mapError, LexError.withPath, eq_comm]
  | ok tokens => simp [skippedOf, scratch, lexed, ok_mapError]

theorem sublist_skipped (outcomes : List Outcome) :
    ((outcomes.filterMap skippedOf).map SkippedFile.path).Sublist
      (outcomes.map (fun outcome => outcome.source.path)) := by
  induction outcomes with
  | nil => exact .slnil
  | cons first rest ih =>
      cases lexed : first.tokens with
      | ok tokens =>
          rw [List.filterMap_cons_none (by simp [skippedOf, lexed])]
          exact .cons _ ih
      | error error =>
          have left : skippedOf first = some ⟨first.source.path, lexFailed, error.cause.message,
              some error.offset⟩ := by simp [skippedOf, lexed]
          rw [List.filterMap_cons_some left]
          exact .cons_cons _ ih

theorem paths_scratch (sources : List SourceFile) :
    (sources.map scratch).map (fun outcome => outcome.source.path) =
      sources.map SourceFile.path := by
  rw [List.map_map]
  rfl

theorem canonical_of_order (sorted : order sources = .ok ordered) :
    (resultOf (ordered.map scratch)).Canonical sources := by
  have accounts := accounts_of_buildIndex sorted (buildIndex_none sorted)
  have presents := Index.presents_ofFiles accounts.dense
  rw [← accounts.postings] at presents
  refine ⟨accounts.dense, accounts.ascending, ?_, ?_, ?_, ?_, ?_, ?_, ?_⟩
  · intro file member
    obtain ⟨outcome, inside, path, content, fingerprint, lexed⟩ := mem_indexedFrom member
    obtain ⟨source, listed, rfl⟩ := List.mem_map.mp inside
    obtain ⟨given, known, rfl⟩ := (mem_order_iff sorted).mp listed
    simp only [scratch] at path content fingerprint lexed
    exact ⟨given, known, path, content, fingerprint, mapError_eq_ok.mp lexed⟩
  · intro source member tokens lexed
    have inside : scratch { source with path := normalizePath source.path } ∈ ordered.map scratch :=
      List.mem_map_of_mem (mem_order_of_mem sorted member)
    have found : (scratch { source with path := normalizePath source.path }).tokens = .ok tokens := by
      simp only [scratch, lexed, ok_mapError]
    obtain ⟨file, held, path, rfl, content, fingerprint⟩ := indexedFrom_of_lexed inside found
    simp only [scratch] at path content fingerprint
    exact ⟨file, held, path, content, fingerprint, lexed⟩
  · intro identity
    obtain ⟨places, told, ascending, _⟩ := presents.postings identity
    cases told
    exact ascending
  · intro identity
    obtain ⟨places, told, _, occur⟩ := presents.postings identity
    cases told
    exact occur
  · have ascending := ascending_order sorted
    rw [← paths_scratch] at ascending
    exact ascending.sublist (sublist_skipped _)
  · intro left
    have listed : left ∈ (resultOf (ordered.map scratch)).skipped ↔
        ∃ source ∈ ordered, skippedOf (scratch source) = some left := by
      simp only [resultOf_eq, List.mem_filterMap, List.mem_map, exists_exists_and_eq_and]
    rw [listed]
    constructor
    · rintro ⟨source, member, told⟩
      obtain ⟨given, known, rfl⟩ := (mem_order_iff sorted).mp member
      obtain ⟨error, refused, rfl⟩ := skippedOf_scratch.mp told
      exact ⟨given, known, error, refused, rfl⟩
    · rintro ⟨given, known, error, refused, rfl⟩
      exact ⟨_, mem_order_of_mem sorted known, skippedOf_scratch.mpr ⟨error, refused, rfl⟩⟩
  · have fresh : (ordered.map scratch).filter Outcome.isReused = [] := by
      rw [List.filter_eq_nil_iff]
      intro outcome member
      obtain ⟨source, _, rfl⟩ := List.mem_map.mp member
      simp [scratch, Outcome.isReused]
    simp only [resultOf_eq, fresh, List.length_nil]

theorem order_of_perm (perm : sources.Perm others) (distinct : (normalPaths sources).Nodup)
    (sorted : order sources = .ok ordered) : order others = .ok ordered := by
  have apart : (normalPaths others).Nodup := (perm.map _).nodup_iff.mp distinct
  obtain ⟨again, sorted'⟩ := order_of_distinct apart
  rw [sorted']
  refine congrArg Except.ok (eq_of_ascending_keys SourceFile.path (ascending_order sorted')
    (ascending_order sorted) (fun source => ?_))
  rw [mem_order_iff sorted', mem_order_iff sorted]
  simp only [perm.mem_iff]

theorem files_of_lexing {reordered : List SourceFile} (sorted : order sources = .ok ordered)
    (sorted' : order others = .ok reordered)
    (same : ∀ source, lexes source = true → (source ∈ sources ↔ source ∈ others)) :
    indexedFrom 0 (ordered.map scratch) = indexedFrom 0 (reordered.map scratch) := by
  have ascending {sources ordered : List SourceFile} (sorted : order sources = .ok ordered) :
      ((ordered.filter lexes).map SourceFile.path).Pairwise (· < ·) :=
    (ascending_order sorted).sublist ((List.filter_sublist).map _)
  rw [← indexedFrom_filter 0 ordered, ← indexedFrom_filter 0 reordered,
    eq_of_ascending_keys SourceFile.path (ascending sorted) (ascending sorted') (fun source => ?_)]
  rw [List.mem_filter, List.mem_filter, mem_order_iff sorted, mem_order_iff sorted']
  refine and_congr_left (fun goes => ?_)
  constructor
  · rintro ⟨given, member, rfl⟩
    simp only [lexes] at goes same
    exact ⟨given, (same given goes).mp member, rfl⟩
  · rintro ⟨given, member, rfl⟩
    simp only [lexes] at goes same
    exact ⟨given, (same given goes).mpr member, rfl⟩

end Build

/-- A build from scratch succeeds when no two sources have one normal path. Its result then tells of
exactly these sources, and depends neither on their order nor, as far as the index goes, on those
that the lexer refuses. Two sources of one normal path are refused, whatever was indexed before. -/
theorem buildIndex_canonical (sources : List SourceFile) :
    ((normalPaths sources).Nodup → ∃ result, buildIndex none sources = .ok result ∧
      result.Canonical sources ∧
      (∀ others, sources.Perm others → buildIndex none others = .ok result) ∧
      ∀ others, (normalPaths others).Nodup →
        (∀ source, Build.lexes source = true → (source ∈ sources ↔ source ∈ others)) →
          ∃ other, buildIndex none others = .ok other ∧ other.index = result.index) ∧
    (¬ (normalPaths sources).Nodup → ∃ path, 1 < (normalPaths sources).count path ∧
      (Fault.duplicatePath path).label = "ValueError" ∧
      ∀ previous, buildIndex previous sources = .error (.duplicatePath path)) := by
  constructor
  · intro distinct
    obtain ⟨ordered, sorted⟩ := Build.order_of_distinct distinct
    refine ⟨_, buildIndex_none sorted, Build.canonical_of_order sorted, ?_, ?_⟩
    · intro others perm
      exact buildIndex_none (Build.order_of_perm perm distinct sorted)
    · intro others apart same
      obtain ⟨reordered, sorted'⟩ := Build.order_of_distinct apart
      refine ⟨_, buildIndex_none sorted', ?_⟩
      simp only [Build.resultOf_eq, Build.files_of_lexing sorted sorted' same]
  · intro twice
    obtain ⟨path, refused, again⟩ := Build.order_refuses twice
    refine ⟨path, again, rfl, fun previous => ?_⟩
    rw [buildIndex, Build.outcomes, refused]
    rfl

/-- A source that lexes and one that does not, in the wrong order. -/
def mixedSources : List SourceFile := [⟨"b.c", [120], none⟩, ⟨"./a.c", [34], some 5⟩]

def twinSources : List SourceFile := [⟨"a.c", [120], none⟩, ⟨"./a.c", [34], some 5⟩]

theorem mixedSources_canonical :
    (∃ result, buildIndex none mixedSources = .ok result ∧ result.Canonical mixedSources) ∧
      ∃ path, ∀ previous, buildIndex previous twinSources = .error (.duplicatePath path) := by
  have apart : normalPaths mixedSources = ["b.c", "a.c"] := by cbv
  have twins : normalPaths twinSources = ["a.c", "a.c"] := by cbv
  obtain ⟨result, built, canonical, _⟩ :=
    (buildIndex_canonical mixedSources).1 (by rw [apart]; decide)
  obtain ⟨path, _, _, refused⟩ := (buildIndex_canonical twinSources).2 (by rw [twins]; decide)
  exact ⟨⟨result, built, canonical⟩, path, refused⟩

end TokenSearch
