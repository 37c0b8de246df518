import Mathlib.Data.List.Nodup
import TokenSearch.Proofs.Data.Sort
import TokenSearch.Proofs.Index.Rebuild

namespace TokenSearch

/-! What becomes of the sources of a build: each is indexed or skipped, and the files of the index stand
in the order of their paths. -/

open Data

/-- Where each member is told on one of two lists, the lists together have the names of all. -/
theorem perm_of_sides {α β : Type} {name : α → β} {kept left : α → Option β} {xs : List α}
    (sides : ∀ x ∈ xs, kept x = some (name x) ∧ left x = none ∨
      kept x = none ∧ left x = some (name x)) :
    (xs.filterMap kept ++ xs.filterMap left).Perm (xs.map name) := by
  induction xs with
  | nil => exact .nil
  | cons x rest ih =>
      have later := ih (fun other member => sides other (List.mem_cons_of_mem _ member))
      rw [List.map_cons]
      rcases sides x List.mem_cons_self with ⟨here, gone⟩ | ⟨gone, here⟩
      · rw [List.filterMap_cons_some here, List.filterMap_cons_none gone]
        exact later.cons _
      · rw [List.filterMap_cons_none gone, List.filterMap_cons_some here]
        exact List.perm_middle.trans (later.cons _)

/-- Among entries with paths of their own, that of a file is found by its path. -/
theorem find?_entry {files : List IndexedFile} (distinct : (files.map IndexedFile.path).Nodup)
    {file : IndexedFile} (member : file ∈ files) :
    (files.map IndexedFile.entry).reverse.find? (fun entry => entry.path = .text file.path) =
      some file.entry := by
  have listed : file.entry ∈ (files.map IndexedFile.entry).reverse :=
    List.mem_reverse.mpr (List.mem_map_of_mem member)
  cases found : (files.map IndexedFile.entry).reverse.find?
      (fun entry => entry.path = .text file.path) with
  | none =>
      have differs := List.find?_eq_none.mp found file.entry listed
      exact absurd rfl (of_decide_eq_false (Bool.eq_false_iff.mpr differs))
  | some entry =>
      obtain ⟨other, inside, rfl⟩ :=
        List.mem_map.mp (List.mem_reverse.mp (List.mem_of_find?_eq_some found))
      have same := List.find?_some found
      rw [decide_eq_true_iff] at same
      rw [List.inj_on_of_nodup_map distinct inside member (Cell.text.inj same)]

theorem find?_entry_eq_none {files : List IndexedFile} {path : String}
    (absent : path ∉ files.map IndexedFile.path) :
    (files.map IndexedFile.entry).reverse.find? (fun entry => entry.path = .text path) = none := by
  rw [List.find?_eq_none]
  intro entry member
  obtain ⟨file, inside, rfl⟩ := List.mem_map.mp (List.mem_reverse.mp member)
  rw [decide_eq_true_iff]
  intro same
  exact absent (List.mem_map.mpr ⟨file, inside, Cell.text.inj same⟩)

namespace Build

variable {previous : Option Reader} {sources ordered : List SourceFile} {outcomes : List Outcome}

theorem distinct_of_checkDistinct {seen : List String} (checked : checkDistinct seen sources = .ok ()) :
    (sources.map SourceFile.path).Nodup ∧ ∀ source ∈ sources, source.path ∉ seen := by
  induction sources generalizing seen with
  | nil => simp
  | cons source rest ih =>
      rw [checkDistinct] at checked
      split at checked
      · contradiction
      · rename_i unseen
        obtain ⟨distinct, fresh⟩ := ih checked
        refine ⟨List.nodup_cons.mpr ⟨?_, distinct⟩, List.forall_mem_cons.mpr ⟨unseen, ?_⟩⟩
        · intro again
          obtain ⟨other, member, same⟩ := List.mem_map.mp again
          exact fresh other member (same ▸ List.mem_cons_self)
        · intro other member known
          exact fresh other member (List.mem_cons_of_mem _ known)

theorem ascending_order (sorted : order sources = .ok ordered) :
    (ordered.map SourceFile.path).Pairwise (· < ·) := by
  obtain ⟨_, checked, sorted⟩ := bind_eq_ok.mp sorted
  cases sorted
  exact ascending_mergeSort SourceFile.path (distinct_of_checkDistinct checked).1

theorem checkDistinct_of_distinct {seen : List String} (fresh : ∀ source ∈ sources, source.path ∉ seen)
    (distinct : (sources.map SourceFile.path).Nodup) : checkDistinct seen sources = .ok () := by
  induction sources generalizing seen with
  | nil => rfl
  | cons source rest ih =>
      rw [List.map_cons, List.nodup_cons] at distinct
      rw [checkDistinct, if_neg (fresh source List.mem_cons_self)]
      refine ih ?_ distinct.2
      intro other member known
      rcases List.mem_cons.mp known with same | old
      · exact distinct.1 (same ▸ List.mem_map_of_mem member)
      · exact fresh other (List.mem_cons_of_mem _ member) old

/-- Sources in normal form and in order stay as they are. -/
theorem order_of_ascending (normal : ∀ source ∈ sources, normalizePath source.path = source.path)
    (ascending : (sources.map SourceFile.path).Pairwise (· < ·)) : order sources = .ok sources := by
  have kept : sources.map (fun source => { source with path := normalizePath source.path }) =
      sources := by
    refine (List.map_congr_left (fun source member => ?_)).trans (List.map_id sources)
    rw [normal source member]
    rfl
  have checked := @checkDistinct_of_distinct _ [] (fun _ _ => List.not_mem_nil)
    (nodup_of_ascending ascending)
  have sorted : sources.Pairwise (fun a b => decide (a.path ≤ b.path) = true) := by
    refine (List.pairwise_map.mp ascending).imp (fun less => ?_)
    exact decide_eq_true (Std.le_of_lt less)
  rw [order, kept, checked, ok_bind, List.mergeSort_of_pairwise sorted]
  rfl

theorem mem_order_of_mem (sorted : order sources = .ok ordered) {source : SourceFile}
    (member : source ∈ sources) : { source with path := normalizePath source.path } ∈ ordered := by
  obtain ⟨_, _, sorted⟩ := bind_eq_ok.mp sorted
  cases sorted
  exact List.mem_mergeSort.mpr (List.mem_map_of_mem member)

theorem source_of_outcome {source : SourceFile} {found : Outcome}
    (returned : outcome previous source = .ok found) :
    found.source = source ∧ found.fingerprint = .ofContent source.content source.modified := by
  obtain ⟨_, _, returned⟩ := bind_eq_ok.mp returned
  cases returned
  exact ⟨rfl, rfl⟩

theorem sources_of_outcomes (returned : ordered.mapM (outcome previous) = .ok outcomes) :
    outcomes.map Outcome.source = ordered ∧ ∀ found ∈ outcomes,
      found.fingerprint = .ofContent found.source.content found.source.modified := by
  induction ordered generalizing outcomes with
  | nil =>
      cases returned
      simp
  | cons source rest ih =>
      obtain ⟨first, others, lexed, later, rfl⟩ := mapM_cons_eq_ok.mp returned
      obtain ⟨rfl, printed⟩ := source_of_outcome lexed
      obtain ⟨same, each⟩ := ih later
      exact ⟨by rw [List.map_cons, same], List.forall_mem_cons.mpr ⟨printed, each⟩⟩

theorem mem_indexedFrom {next : Nat} {file : IndexedFile} (member : file ∈ indexedFrom next outcomes) :
    ∃ outcome ∈ outcomes, file.path = outcome.source.path ∧ file.source = outcome.source.content ∧
      file.fingerprint = outcome.fingerprint ∧ outcome.tokens = .ok file.tokens := by
  induction outcomes generalizing next with
  | nil => contradiction
  | cons first rest ih =>
      rw [indexedFrom] at member
      cases lexed : first.tokens with
      | error error =>
          rw [lexed] at member
          obtain ⟨other, inside, told⟩ := ih member
          exact ⟨other, List.mem_cons_of_mem _ inside, told⟩
      | ok tokens =>
          rw [lexed] at member
          rcases List.mem_cons.mp member with rfl | later
          · exact ⟨first, List.mem_cons_self, rfl, rfl, rfl, lexed⟩
          · obtain ⟨other, inside, told⟩ := ih later
            exact ⟨other, List.mem_cons_of_mem _ inside, told⟩

theorem indexedFrom_of_lexed {next : Nat} {outcome : Outcome} (member : outcome ∈ outcomes)
    {tokens : List Token} (lexed : outcome.tokens = .ok tokens) :
    ∃ file ∈ indexedFrom next outcomes, file.path = outcome.source.path ∧ file.tokens = tokens ∧
      file.source = outcome.source.content ∧ file.fingerprint = outcome.fingerprint := by
  induction outcomes generalizing next with
  | nil => contradiction
  | cons first rest ih =>
      rw [indexedFrom]
      rcases List.mem_cons.mp member with rfl | later
      · rw [lexed]
        exact ⟨_, List.mem_cons_self, rfl, rfl, rfl, rfl⟩
      · cases first.tokens with
        | error error => exact ih later
        | ok others =>
            obtain ⟨file, inside, same⟩ := @ih (next + 1) later
            exact ⟨file, List.mem_cons_of_mem _ inside, same⟩

theorem skipped_of_error {outcome : Outcome} (member : outcome ∈ outcomes) {error : LexError}
    (refused : outcome.tokens = .error error) :
    ⟨outcome.source.path, lexFailed, error.cause.message, some error.offset⟩ ∈
      outcomes.filterMap skippedOf :=
  List.mem_filterMap.mpr ⟨outcome, member, by rw [skippedOf, refused]⟩

/-- A source without tokens is one that the lexer refused. -/
theorem refused_of_outcome {source : SourceFile} {found : Outcome}
    (returned : outcome previous source = .ok found) {error : LexError}
    (refused : found.tokens = .error error) :
    ∃ own, Lexer.tokenize source.content = .error own ∧ error = own.withPath source.path := by
  obtain ⟨kind, _, returned⟩ := bind_eq_ok.mp returned
  cases returned
  cases lexed : Lexer.tokenize source.content with
  | error own =>
      cases kind with
      | found tokens => cases refused
      | absent | unreadable | short | restated =>
          simp only [lexed] at refused
          cases refused
          exact ⟨own, rfl, rfl⟩
  | ok tokens => cases kind <;> simp only [lexed] at refused <;> cases refused

/-- Where the tokens of a source are taken from an earlier index, the source could be lexed. -/
def Credible (previous : Option Reader) (source : SourceFile) : Prop :=
  ∀ tokens, reuse previous source.path (.ofContent source.content source.modified) =
    .ok (.found tokens) → ∃ own, Lexer.tokenize source.content = .ok own

/-- A credible source with tokens is one that the lexer accepts. -/
theorem lexed_of_outcome {source : SourceFile} {found : Outcome} {tokens : List Token}
    (credible : Credible previous source) (returned : outcome previous source = .ok found)
    (lexed : found.tokens = .ok tokens) : ∃ own, Lexer.tokenize source.content = .ok own := by
  obtain ⟨kind, reused, returned⟩ := bind_eq_ok.mp returned
  cases returned
  cases kind with
  | found others => exact credible others reused
  | absent | unreadable | short | restated => exact ⟨tokens, mapError_eq_ok.mp lexed⟩

theorem paths_indexedFrom (next : Nat) (outcomes : List Outcome) :
    (indexedFrom next outcomes).map IndexedFile.path = outcomes.filterMap (fun outcome =>
      match outcome.tokens with
      | .ok _ => some outcome.source.path
      | .error _ => none) := by
  induction outcomes generalizing next with
  | nil => rfl
  | cons first rest ih =>
      rw [indexedFrom]
      cases lexed : first.tokens with
      | error error => rw [List.filterMap_cons_none (by rw [lexed]), ih]
      | ok tokens => rw [List.filterMap_cons_some (by rw [lexed]), List.map_cons, ih]

theorem sublist_indexedFrom (next : Nat) (outcomes : List Outcome) :
    ((indexedFrom next outcomes).map IndexedFile.path).Sublist
      (outcomes.map (fun outcome => outcome.source.path)) := by
  induction outcomes generalizing next with
  | nil => exact .slnil
  | cons first rest ih =>
      rw [indexedFrom]
      cases first.tokens with
      | error error => exact .cons _ (ih next)
      | ok tokens => exact .cons_cons _ (ih (next + 1))

end Build

/-- The files of an index and the skipped files, as they come from the sources of a build. -/
structure BuildResult.Accounts (result : BuildResult) (ordered : List SourceFile) : Prop where
  dense : Index.Dense result.index.files
  postings : result.index = ⟨result.index.files, PostingMap.ofFiles result.index.files⟩
  ascending : (result.index.files.map IndexedFile.path).Pairwise (· < ·)
  files : ∀ file ∈ result.index.files, ∃ source ∈ ordered, file.path = source.path ∧
    file.source = source.content ∧ file.fingerprint = .ofContent source.content source.modified
  sources : ∀ source ∈ ordered, (∃ file ∈ result.index.files, file.path = source.path) ∨
    ∃ left ∈ result.skipped, left.path = source.path

theorem accounts_of_buildIndex {previous : Option Reader} {sources ordered : List SourceFile}
    {result : BuildResult} (sorted : Build.order sources = .ok ordered)
    (built : buildIndex previous sources = .ok result) : result.Accounts ordered := by
  have postings := postings_of_buildIndex built
  obtain ⟨outcomes, found, built⟩ := bind_eq_ok.mp built
  cases built
  rw [Build.outcomes, sorted, ok_bind] at found
  obtain ⟨rfl, printed⟩ := Build.sources_of_outcomes found
  refine ⟨Build.dense_indexedFrom outcomes, postings, ?_, ?_, ?_⟩
  · have ascending := Build.ascending_order sorted
    rw [List.map_map] at ascending
    exact ascending.sublist (Build.sublist_indexedFrom 0 outcomes)
  · intro file member
    obtain ⟨outcome, inside, path, source, fingerprint, _⟩ := Build.mem_indexedFrom member
    exact ⟨outcome.source, List.mem_map_of_mem inside, path, source,
      fingerprint.trans (printed outcome inside)⟩
  · intro source member
    obtain ⟨outcome, inside, rfl⟩ := List.mem_map.mp member
    cases lexed : outcome.tokens with
    | error error => exact .inr ⟨_, Build.skipped_of_error inside lexed, rfl⟩
    | ok tokens =>
        obtain ⟨file, held, same, _⟩ := Build.indexedFrom_of_lexed inside lexed
        exact .inl ⟨file, held, same⟩

theorem presents_of_buildIndex {previous : Option Reader} {sources : List SourceFile}
    {result : BuildResult} (built : buildIndex previous sources = .ok result) :
    result.index.reader.Presents result.index.streams := by
  obtain ⟨ordered, sorted⟩ := order_of_buildIndex built
  have accounts := accounts_of_buildIndex sorted built
  rw [accounts.postings]
  exact Index.presents_ofFiles accounts.dense

/-- The indexed files and the skipped ones are all files of a build, each told once. -/
theorem perm_of_buildIndex {previous : Option Reader} {sources ordered : List SourceFile}
    {result : BuildResult} (sorted : Build.order sources = .ok ordered)
    (built : buildIndex previous sources = .ok result) :
    (result.index.files.map IndexedFile.path ++ result.skipped.map SkippedFile.path).Perm
      (ordered.map SourceFile.path) := by
  obtain ⟨outcomes, found, built⟩ := bind_eq_ok.mp built
  cases built
  rw [Build.outcomes, sorted, ok_bind] at found
  obtain ⟨rfl, _⟩ := Build.sources_of_outcomes found
  simp only [Build.resultOf_eq]
  rw [Build.paths_indexedFrom, List.map_filterMap, List.map_map]
  refine perm_of_sides (fun outcome _ => ?_)
  cases lexed : outcome.tokens with
  | ok tokens => exact .inl ⟨rfl, by simp [Build.skippedOf, lexed]⟩
  | error error => exact .inr ⟨rfl, by simp [Build.skippedOf, lexed]⟩

/-- A credible source is skipped where the lexer refuses it, and indexed with its bytes otherwise. -/
theorem lexed_or_refused {previous : Option Reader} {sources ordered : List SourceFile}
    {result : BuildResult} (sorted : Build.order sources = .ok ordered)
    (built : buildIndex previous sources = .ok result) {source : SourceFile}
    (member : source ∈ ordered) (credible : Build.Credible previous source) :
    (∃ error, Lexer.tokenize source.content = .error error ∧
      ⟨source.path, Build.lexFailed, error.cause.message, some error.offset⟩ ∈ result.skipped) ∨
    ∃ tokens, Lexer.tokenize source.content = .ok tokens ∧
      ∃ file ∈ result.index.files, file.path = source.path ∧ file.source = source.content := by
  obtain ⟨outcomes, found, built⟩ := bind_eq_ok.mp built
  cases built
  rw [Build.outcomes, sorted, ok_bind] at found
  obtain ⟨outcome, looked⟩ := each_of_mapM found source member
  have inside := (mem_of_mapM found).mpr ⟨source, member, looked⟩
  obtain ⟨rfl, _⟩ := Build.source_of_outcome looked
  cases lexed : outcome.tokens with
  | error error =>
      have told := Build.skipped_of_error inside lexed
      obtain ⟨own, refused, rfl⟩ := Build.refused_of_outcome looked lexed
      exact .inl ⟨own, refused, told⟩
  | ok tokens =>
      obtain ⟨own, accepted⟩ := Build.lexed_of_outcome credible looked lexed
      obtain ⟨file, held, path, _, content, _⟩ := Build.indexedFrom_of_lexed inside lexed
      exact .inr ⟨own, accepted, file, held, path, content⟩

/-- A file is indexed with the tokens that were found for its source. -/
theorem indexed_iff_outcome {previous : Option Reader} {sources ordered : List SourceFile}
    {result : BuildResult} (sorted : Build.order sources = .ok ordered)
    (built : buildIndex previous sources = .ok result) (path : String) (tokens : List Token) :
    (∃ file ∈ result.index.files, file.path = path ∧ file.tokens = tokens) ↔
      ∃ source ∈ ordered, source.path = path ∧
        ∃ outcome, Build.outcome previous source = .ok outcome ∧ outcome.tokens = .ok tokens := by
  obtain ⟨outcomes, found, built⟩ := bind_eq_ok.mp built
  cases built
  rw [Build.outcomes, sorted, ok_bind] at found
  have listed {outcome : Build.Outcome} : outcome ∈ outcomes ↔
      ∃ source ∈ ordered, Build.outcome previous source = .ok outcome := mem_of_mapM found
  constructor
  · rintro ⟨file, member, rfl, rfl⟩
    obtain ⟨outcome, inside, path, _, _, lexed⟩ := Build.mem_indexedFrom member
    obtain ⟨source, given, looked⟩ := listed.mp inside
    refine ⟨source, given, ?_, outcome, looked, lexed⟩
    rw [path, (Build.source_of_outcome looked).1]
  · rintro ⟨source, given, rfl, outcome, looked, lexed⟩
    obtain ⟨file, member, path, same, _⟩ :=
      Build.indexedFrom_of_lexed (listed.mpr ⟨source, given, looked⟩) lexed
    refine ⟨file, member, ?_, same⟩
    rw [path, (Build.source_of_outcome looked).1]

/-- A build tells of each file that it skips where the lexer refused it. -/
theorem refused_of_skipped {previous : Option Reader} {sources ordered : List SourceFile}
    {result : BuildResult} (sorted : Build.order sources = .ok ordered)
    (built : buildIndex previous sources = .ok result) {left : SkippedFile}
    (member : left ∈ result.skipped) :
    ∃ source ∈ ordered, ∃ cause, Lexer.tokenize source.content = .error cause ∧
      left.offset = some cause.offset := by
  obtain ⟨outcomes, found, built⟩ := bind_eq_ok.mp built
  cases built
  rw [Build.outcomes, sorted, ok_bind] at found
  obtain ⟨outcome, inside, told⟩ := List.mem_filterMap.mp member
  obtain ⟨source, given, looked⟩ := (mem_of_mapM found).mp inside
  unfold Build.skippedOf at told
  cases refused : outcome.tokens with
  | ok tokens => simp [refused] at told
  | error error =>
      rw [refused] at told
      cases told
      obtain ⟨own, lexed, rfl⟩ := Build.refused_of_outcome looked refused
      exact ⟨source, given, own, lexed, rfl⟩

end TokenSearch
