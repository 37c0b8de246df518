import TokenSearch.Proofs.Index.Accounts
import TokenSearch.Proofs.Lexer.Fragment
import TokenSearch.Proofs.Search.Complete
import TokenSearch.Proofs.Text.RawText

namespace TokenSearch

/-! A piece that is copied out of an indexed file and searched for is found where it was taken. -/

open Data Lexer Text

theorem Query.compile_ofString {text : String} {tokens : List Token}
    (complete : scan .start [] text.toList = ⟨tokens, none⟩) (filled : tokens ≠ []) :
    Query.compile (.ofString text) = .ok ⟨text, tokens, filled⟩ := by
  have lexed : tokenizeText (.ofString text) = .ok tokens := by
    rw [tokenizeText, lexText, RawText.hasSurrogate_ofString, RawText.sound_ofString]
    simp [complete, Lexing.complete]
  rw [Query.compile, lexed]
  cases tokens with
  | nil => contradiction
  | cons first rest => simp only [RawText.toStringLossy_ofString]

/-- A file of an index has the tokens of its content, if tokens that an earlier index had for it are
the tokens of that content. -/
theorem lexed_of_honest {previous : Option Reader} {sources : List SourceFile}
    {result : BuildResult} {file : IndexedFile} (built : buildIndex previous sources = .ok result)
    (member : file ∈ result.index.files)
    (honest : Build.Honest previous ⟨file.path, file.source, file.fingerprint.modified⟩) :
    tokenize file.source = .ok file.tokens := by
  obtain ⟨outcomes, found, built⟩ := bind_eq_ok.mp built
  cases built
  obtain ⟨ordered, sorted, found⟩ := bind_eq_ok.mp found
  obtain ⟨outcome, inside, path, source, fingerprint, lexed⟩ := Build.mem_indexedFrom member
  obtain ⟨given, _, looked⟩ := (mem_of_mapM found).mp inside
  obtain ⟨rfl, printed⟩ := Build.source_of_outcome looked
  have same : (⟨file.path, file.source, file.fingerprint.modified⟩ : SourceFile) = outcome.source := by
    rw [path, source, fingerprint, printed]
    rfl
  rw [same] at honest
  have forgotten := congrArg Build.Outcome.tokens (Build.forget_outcome honest looked)
  have scratched : (tokenize outcome.source.content).mapError
      (fun error => error.withPath outcome.source.path) = .ok file.tokens := by
    rw [← lexed]
    exact forgotten.symm
  rw [source]
  exact mapError_eq_ok.mp scratched

theorem isMatch_of_run {streams : List (List Token)} {query : Query} {number i j : Nat}
    {stream : List Token} (held : streams[number]? = some stream) (forward : i ≤ j)
    (inside : j < stream.length)
    (same : query.identities = ((stream.drop i).take (j + 1 - i)).map Token.identity) :
    ∃ shown, IsMatch streams query shown ∧ shown.file = number ∧ shown.first = i ∧
      shown.last = j := by
  have width : query.width = j + 1 - i := by
    have size := congrArg List.length same
    simp only [Query.identities, List.length_map, List.length_take, List.length_drop] at size
    rw [Query.width, size]
    omega
  have filled : (stream.drop i).take (j + 1 - i) ≠ [] := by
    apply List.ne_nil_of_length_pos
    rw [List.length_take, List.length_drop]
    omega
  obtain ⟨low, least⟩ : ∃ low, (((stream.drop i).take (j + 1 - i)).map
      (fun token => token.start.line)).min? = some low :=
    Option.ne_none_iff_exists'.mp (mt List.min?_eq_none_iff.mp (mt List.map_eq_nil_iff.mp filled))
  obtain ⟨high, greatest⟩ : ∃ high, (((stream.drop i).take (j + 1 - i)).map
      Token.lastLine).max? = some high :=
    Option.ne_none_iff_exists'.mp (mt List.max?_eq_none_iff.mp (mt List.map_eq_nil_iff.mp filled))
  rw [← width] at least greatest same
  refine ⟨_, ⟨number, i, stream, _, low, high, held, by omega, rfl, same.symm, least, greatest, rfl⟩,
    rfl, rfl, ?_⟩
  simp only [width]
  omega

/-- A piece of an indexed file, from the first byte of one token to the last byte of another,
compiles to the tokens between them, and a search for it finds them where they are. -/
theorem fragment_found {previous : Option Reader} {sources : List SourceFile}
    {result : BuildResult} {file : IndexedFile} {i j : Nat} {first last : Token}
    (built : buildIndex previous sources = .ok result) (member : file ∈ result.index.files)
    (honest : Build.Honest previous ⟨file.path, file.source, file.fingerprint.modified⟩)
    (forward : i ≤ j) (start : file.tokens[i]? = some first) (stop : file.tokens[j]? = some last)
    (contained : SelfContained ((file.tokens.drop i).take (j + 1 - i))) :
    ∃ text query found shown,
      Utf8.encodeString text = Data.slice file.source first.start.offset last.stop.offset ∧
        Query.compile (.ofString text) = .ok query ∧
        query.identities = ((file.tokens.drop i).take (j + 1 - i)).map Token.identity ∧
        result.index.reader.matches query = .ok found ∧ shown ∈ found ∧
        shown.file = file.id ∧ shown.first = i ∧ shown.last = j := by
  obtain ⟨cs, source, complete⟩ := tokenize_eq_ok.mp (lexed_of_honest built member honest)
  obtain ⟨before, piece, after, others, rfl, here, there, alone, same⟩ :=
    scan_fragment complete forward start stop contained
  have inside := (List.getElem?_eq_some_iff.mp stop).1
  have filled : others ≠ [] := by
    have size := congrArg List.length same
    simp only [List.length_map, List.length_take, List.length_drop] at size
    apply List.ne_nil_of_length_pos
    omega
  have compiled : Query.compile (.ofString (.ofList piece)) = .ok ⟨.ofList piece, others, filled⟩ :=
    Query.compile_ofString (by rwa [String.toList_ofList]) filled
  have spelled : Utf8.encodeString (.ofList piece) =
      Data.slice file.source first.start.offset last.stop.offset := by
    rw [source, here, there, Position.start_advance, Position.start_advance, Position.behind_offset,
      Position.behind_offset, Utf8.encode_append, Utf8.encode_append, Utf8.encode_append,
      slice_middle, Utf8.encodeString, String.toList_ofList]
  obtain ⟨ordered, sorted⟩ := order_of_buildIndex built
  have accounts := accounts_of_buildIndex sorted built
  obtain ⟨number, held⟩ := List.getElem?_of_mem member
  obtain ⟨_, found, verifies, exact_⟩ :=
    (Index.presents_ofFiles accounts.dense).verifies ⟨.ofList piece, others, filled⟩
  have stream : (result.index.files.map IndexedFile.tokens)[number]? = some file.tokens := by
    rw [List.getElem?_map, held]
    rfl
  obtain ⟨shown, isMatch, place⟩ :=
    @isMatch_of_run _ ⟨.ofList piece, others, filled⟩ _ _ _ _ stream forward inside same
  refine ⟨.ofList piece, _, found, shown, spelled, compiled, same, ?_, (exact_ shown).mpr isMatch, ?_⟩
  · rw [accounts.postings]
    exact verifies.matches_eq
  · rw [accounts.dense number file held]
    exact place

def lineSource : SourceFile := ⟨"a.c", Utf8.encodeString "x =\n\"é\"/**/;", none⟩

def lineTokens : List Token :=
  [⟨.identifier, "x", ⟨0, 1, 1⟩, ⟨1, 1, 2⟩⟩, ⟨.punctuator, "=", ⟨2, 1, 3⟩, ⟨3, 1, 4⟩⟩,
    ⟨.string, "\"é\"", ⟨4, 2, 1⟩, ⟨8, 2, 5⟩⟩, ⟨.punctuator, ";", ⟨12, 2, 9⟩, ⟨13, 2, 10⟩⟩]

def lineFile : IndexedFile :=
  ⟨0, "a.c", .ofContent lineSource.content none, lineTokens, lineSource.content⟩

theorem lineSource_built :
    buildIndex none [lineSource] = .ok ⟨⟨[lineFile], .ofFiles [lineFile]⟩, 0, []⟩ := by
  have ordered : Build.order [lineSource] = .ok [lineSource] :=
    Build.order_of_ascending (by decide) (by decide)
  have lexed : tokenize lineSource.content = .ok lineTokens :=
    tokenize_eq_ok.mpr ⟨"x =\n\"é\"/**/;".toList, rfl, by cbv⟩
  rw [buildIndex_none ordered, List.map_singleton, Build.scratch, lexed, Build.resultOf_eq]
  rfl

theorem lineFile_found :
    ∃ text query found shown, Utf8.encodeString text = Data.slice lineFile.source 2 13 ∧
      Query.compile (.ofString text) = .ok query ∧
      query.identities = [⟨.punctuator, "="⟩, ⟨.string, "\"é\""⟩, ⟨.punctuator, ";"⟩] ∧
      (Index.reader ⟨[lineFile], .ofFiles [lineFile]⟩).matches query = .ok found ∧ shown ∈ found ∧
      shown.file = 0 ∧ shown.first = 1 ∧ shown.last = 3 := by
  refine @fragment_found none _ _ lineFile 1 3 _ _ lineSource_built List.mem_cons_self ?_
    (by decide) rfl rfl ⟨by decide, ?_⟩
  · intro tokens reused
    simp [Build.reuse] at reused
  · intro hash directive mark rest split directs
    cases split
    exact absurd directs.named (by decide)

/-- An index of a file that tells of another token. -/
def strayFile : IndexedFile where
  id := 0
  path := "a.c"
  fingerprint := .ofContent [120] none
  tokens := [⟨.identifier, "y", ⟨0, 1, 1⟩, ⟨1, 1, 2⟩⟩]
  source := [120]

def strayIndex : Index := ⟨[strayFile], .ofFiles [strayFile]⟩

/-- Tokens of an earlier index are taken as they are, so they need not be those of the file. -/
theorem stray_not_found :
    buildIndex (some strayIndex.reader) [⟨"a.c", [120], none⟩] = .ok ⟨strayIndex, 1, []⟩ ∧
      SelfContained strayFile.tokens ∧ Utf8.encodeString "x" = Data.slice strayFile.source 0 1 ∧
      ∃ query, Query.compile (.ofString "x") = .ok query ∧
        query.identities ≠ strayFile.tokens.map Token.identity ∧
        strayIndex.reader.matches query = .ok [] := by
  have reused : Build.reuse (some strayIndex.reader) "a.c" (.ofContent [120] none) =
      .ok (.found strayFile.tokens) := by
    have same : strayFile.entry.isEquivalent (.ofContent [120] none) = true := by
      simp [FileEntry.isEquivalent, IndexedFile.entry, strayFile]
    rw [@Build.reuse_of_complete strayIndex.reader "a.c" _ strayFile.entry
      (strayFile.tokens.map Token.seen) rfl same rfl rfl]
    rfl
  have ordered : Build.order [⟨"a.c", [120], none⟩] = .ok [⟨"a.c", [120], none⟩] :=
    Build.order_of_ascending (by decide) (by decide)
  refine ⟨?_, ⟨by decide, ?_⟩, by decide, ⟨"x", [wordAt 0], by simp⟩, ?_, by decide, rfl⟩
  · rw [buildIndex_of_order ordered, List.mapM_cons, Build.outcome, reused]
    rfl
  · intro hash directive mark rest split
    cases split
  · exact Query.compile_ofString (by cbv) (by simp)

end TokenSearch
