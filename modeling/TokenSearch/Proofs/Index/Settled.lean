import TokenSearch.Proofs.Artifact.Damage
import TokenSearch.Proofs.Artifact.Readings
import TokenSearch.Proofs.Index.Accounts

namespace TokenSearch

/-! Building again from sources of which an index already has all there is to have. The build gives the
same files the same numbers and the same tokens. -/

open Data Artifact

/-- What readers see of an indexed file: its number, its path and its tokens. -/
def IndexedFile.stream (file : IndexedFile) : Int × String × List Token :=
  (file.id, file.path, file.tokens)

/-- A source that is indexed with its content, or that is not indexed and has no tokens. -/
def Index.Settled (index : Index) (source : SourceFile) : Prop :=
  (∃ file ∈ index.files, file.path = source.path ∧
    file.entry.isEquivalent (.ofContent source.content source.modified) = true) ∨
  (source.path ∉ index.files.map IndexedFile.path ∧
    ∃ error, Lexer.tokenize source.content = .error error)

variable {index : Index} {reader : Reader}

theorem window_of_agrees (agrees : reader.Agrees index.reader) (fitting : Fitting index)
    (dense : Index.Dense index.files) {file : IndexedFile} (member : file ∈ index.files) :
    reader.window file.id 0 file.tokens.length = .ok (file.tokens.map Token.seen) := by
  obtain ⟨number, held⟩ := List.getElem?_of_mem member
  obtain ⟨known, found⟩ := List.getElem?_eq_some_iff.mp held
  have id : file.id = number := dense number file held
  have fits := fitting.fileNumbers file member file.tokens.length (by simp [fileNumbers])
  have count : (file.tokens.length : Int) < columnLimit := by
    simp only [Cell.fitsColumn, Bool.and_eq_true, decide_eq_true_eq] at fits
    exact fits.2
  have size : (number : Int) < index.reader.entries.length := by
    simp only [Index.reader, Index.entries, List.length_map]
    omega
  have whole : slice file.tokens 0 file.tokens.length = file.tokens := by
    have all := slice_natCast file.tokens 0 file.tokens.length
    rwa [List.drop_zero, Nat.sub_zero, List.take_length] at all
  rw [id, agrees.window number 0 file.tokens.length (by omega) size (by omega) (by decide) (by omega)
    count]
  simp only [Index.reader, at?_natCast, List.getElem?_map, held, Option.map_some, sliceRow_toArray,
    whole]

/-- The tokens of a file are taken from a reader that agrees with the index. -/
theorem reuse_of_agrees (agrees : reader.Agrees index.reader) (fitting : Fitting index)
    (dense : Index.Dense index.files) {file : IndexedFile} (member : file ∈ index.files)
    {fingerprint : Fingerprint} (same : file.entry.isEquivalent fingerprint = true) :
    Build.reuse (some reader) file.path fingerprint = .ok (.found file.tokens) := by
  have listed : Build.entryOf? reader file.path = some file.entry := by
    rw [Build.entryOf?, agrees.entries]
    exact find?_entry fitting.paths member
  have read := window_of_agrees agrees fitting dense member
  have complete : file.entry.tokenCount.agrees
      (.integer (file.tokens.map Token.seen).length) = true := by
    simp [IndexedFile.entry]
  rw [Build.reuse_of_complete listed same read complete, mapM_token?_seen]

theorem reuse_of_unlisted (agrees : reader.Agrees index.reader) {path : String}
    (absent : path ∉ index.files.map IndexedFile.path) (fingerprint : Fingerprint) :
    Build.reuse (some reader) path fingerprint = .ok .absent := by
  have unlisted : Build.entryOf? reader path = none := by
    rw [Build.entryOf?, agrees.entries]
    exact find?_entry_eq_none absent
  simp only [Build.reuse, unlisted]

/-- A settled source gets the tokens that it has in the index. -/
theorem Index.Settled.outcome (agrees : reader.Agrees index.reader) (fitting : Fitting index)
    (dense : Index.Dense index.files) {source : SourceFile} (settled : index.Settled source) :
    ∃ outcome, Build.outcome (some reader) source = .ok outcome ∧
      ∀ tokens, outcome.tokens = .ok tokens ↔
        ∃ file ∈ index.files, file.path = source.path ∧ file.tokens = tokens := by
  rcases settled with ⟨file, member, path, same⟩ | ⟨absent, error, refused⟩
  · have reused := reuse_of_agrees agrees fitting dense member same
    rw [path] at reused
    refine ⟨⟨source, .ofContent source.content source.modified, .found file.tokens,
      .ok file.tokens⟩, ?_, ?_⟩
    · rw [Build.outcome, reused]
      rfl
    · intro tokens
      constructor
      · intro found
        exact ⟨file, member, path, Except.ok.inj found⟩
      · rintro ⟨other, inside, named, rfl⟩
        rw [List.inj_on_of_nodup_map fitting.paths inside member (named.trans path.symm)]
  · refine ⟨⟨source, .ofContent source.content source.modified, .absent,
      .error (error.withPath source.path)⟩, ?_, ?_⟩
    · rw [Build.outcome, reuse_of_unlisted agrees absent, ok_bind]
      simp only [refused]
      rfl
    · intro tokens
      constructor
      · intro found
        cases found
      · rintro ⟨file, member, named, _⟩
        exact absurd (List.mem_map.mpr ⟨file, member, named⟩) absent

theorem map_stream_eq {files others : List IndexedFile} (dense : Index.Dense files)
    (denseToo : Index.Dense others)
    (same : files.map (fun file => (file.path, file.tokens)) =
      others.map (fun file => (file.path, file.tokens))) :
    files.map IndexedFile.stream = others.map IndexedFile.stream := by
  apply List.ext_getElem?
  intro place
  have pair := congrArg (fun pairs => pairs[place]?) same
  simp only [List.getElem?_map] at pair ⊢
  cases first : files[place]? with
  | none =>
      cases second : others[place]? with
      | none => rfl
      | some other => simp [first, second] at pair
  | some file =>
      cases second : others[place]? with
      | none => simp [first, second] at pair
      | some other =>
          simp only [first, second, Option.map_some, Option.some.injEq, Prod.mk.injEq] at pair ⊢
          simp only [IndexedFile.stream, Prod.mk.injEq, dense place file first,
            denseToo place other second, true_and]
          exact pair

/-- Where all sources are settled and no file of the index lacks one, a build gives the same files. -/
theorem buildIndex_settled (agrees : reader.Agrees index.reader) (fitting : Fitting index)
    (dense : Index.Dense index.files)
    (ascending : (index.files.map IndexedFile.path).Pairwise (· < ·))
    {sources ordered : List SourceFile} (sorted : Build.order sources = .ok ordered)
    (settled : ∀ source ∈ ordered, index.Settled source)
    (covered : ∀ file ∈ index.files, ∃ source ∈ ordered, source.path = file.path) :
    ∃ result, buildIndex (some reader) sources = .ok result ∧
      result.index.files.map IndexedFile.stream = index.files.map IndexedFile.stream := by
  have known : ∀ source ∈ ordered, ∃ kind, Build.reuse (some reader) source.path
      (.ofContent source.content source.modified) = .ok kind := by
    intro source member
    obtain ⟨_, looked, _⟩ := (settled source member).outcome agrees fitting dense
    obtain ⟨kind, reused, _⟩ := bind_eq_ok.mp looked
    exact ⟨kind, reused⟩
  obtain ⟨result, built⟩ := buildIndex_of_reuse sorted known
  have accounts := accounts_of_buildIndex sorted built
  refine ⟨result, built, map_stream_eq accounts.dense dense ?_⟩
  have keys (files : List IndexedFile) :
      (files.map (fun file => (file.path, file.tokens))).map Prod.fst =
        files.map IndexedFile.path := by
    rw [List.map_map]
    rfl
  -- both lists ascend by path, so it is enough that they have the same members
  refine eq_of_ascending_keys Prod.fst (keys _ ▸ accounts.ascending) (keys _ ▸ ascending) ?_
  rintro ⟨path, tokens⟩
  have listed (files : List IndexedFile) :
      (path, tokens) ∈ files.map (fun file => (file.path, file.tokens)) ↔
        ∃ file ∈ files, file.path = path ∧ file.tokens = tokens := by
    simp [List.mem_map]
  rw [listed, listed, indexed_iff_outcome sorted built]
  constructor
  · rintro ⟨source, member, rfl, outcome, looked, lexed⟩
    obtain ⟨found, again, told⟩ := (settled source member).outcome agrees fitting dense
    cases looked.symm.trans again
    exact (told tokens).mp lexed
  · rintro ⟨file, member, rfl, rfl⟩
    obtain ⟨source, given, same⟩ := covered file member
    obtain ⟨outcome, looked, told⟩ := (settled source given).outcome agrees fitting dense
    exact ⟨source, given, same, outcome, looked, (told _).mpr ⟨file, member, same.symm, rfl⟩⟩

section Streams

variable {files others : List IndexedFile}
  (same : files.map IndexedFile.stream = others.map IndexedFile.stream)

include same

theorem flatMap_stream {α : Type} (values : Int × String × List Token → List α) :
    files.flatMap (fun file => values file.stream) =
      others.flatMap (fun file => values file.stream) := by
  rw [← List.flatMap_map, same, List.flatMap_map]

/-- Posting lists depend on the numbers and the tokens of the files. -/
theorem ofFiles_stream : PostingMap.ofFiles files = PostingMap.ofFiles others := by
  have identities := flatMap_stream same (fun stream => stream.2.2.map Token.identity)
  have positions (identity : Identity) :=
    flatMap_stream same (fun stream => positionsFrom stream.1 identity 0 stream.2.2)
  simp only [IndexedFile.stream] at identities positions
  simp only [PostingMap.ofFiles, IndexedFile.positions, identities, positions]

theorem tokenRowsOf_stream : tokenRowsOf files = tokenRowsOf others :=
  flatMap_stream same (fun stream => tokenRowsFrom stream.1 0 stream.2.2)

theorem mem_of_stream {file : IndexedFile} (member : file ∈ files) :
    ∃ other ∈ others, other.id = file.id ∧ other.path = file.path ∧ other.tokens = file.tokens := by
  have listed : file.stream ∈ others.map IndexedFile.stream := same ▸ List.mem_map_of_mem member
  obtain ⟨other, inside, equal⟩ := List.mem_map.mp listed
  simp only [IndexedFile.stream, Prod.mk.injEq] at equal
  exact ⟨other, inside, equal⟩

end Streams

/-- Files that others see as those of a stored index can be stored, if their sizes and times fit. -/
theorem Artifact.Fitting.of_stream {files others : List IndexedFile}
    (fitting : Fitting ⟨others, PostingMap.ofFiles others⟩)
    (same : files.map IndexedFile.stream = others.map IndexedFile.stream)
    (sized : ∀ file ∈ files, Cell.fitsColumn file.fingerprint.size = true)
    (timed : ∀ file ∈ files, ∀ time ∈ file.fingerprint.modified, Cell.fitsColumn time = true) :
    Fitting ⟨files, PostingMap.ofFiles files⟩ where
  paths := by
    have paths := congrArg (List.map (fun stream => stream.2.1)) same
    rw [List.map_map, List.map_map] at paths
    exact paths ▸ fitting.paths
  fileNumbers := by
    intro file member n number
    obtain ⟨other, inside, id, _, tokens⟩ := mem_of_stream same member
    simp only [Artifact.fileNumbers, List.cons_append, List.mem_cons, List.mem_append, Option.mem_toList,
      List.not_mem_nil, or_false] at number
    rcases number with rfl | rfl | time | rfl
    · rw [← id]
      exact fitting.fileNumbers other inside other.id (by simp [Artifact.fileNumbers])
    · exact sized file member
    · exact timed file member n time
    · rw [← tokens]
      exact fitting.fileNumbers other inside other.tokens.length (by simp [Artifact.fileNumbers])
  tokenNumbers := by
    intro file member token held
    obtain ⟨other, inside, _, _, tokens⟩ := mem_of_stream same member
    exact fitting.tokenNumbers other inside token (tokens ▸ held)
  words := by
    rw [ofFiles_stream same]
    exact fitting.words

end TokenSearch
