import Mathlib.Data.List.Basic
import TokenSearch.Proofs.Data.Result
import TokenSearch.Proofs.Index.Streams
import TokenSearch.Proofs.Search.Windows
import TokenSearch.Proofs.Table.Cell
import TokenSearch.Search.Match

namespace TokenSearch

/-! A search finds every run of tokens that equals the query, and nothing else. -/

/-- A match tells of `query.width` tokens in a row that have the identities of the query, and of the
lines that they touch. -/
def IsMatch (streams : List (List Token)) (query : Query) (found : Match) : Prop :=
  ∃ (file first : Nat) (stream run : List Token) (low high : Int),
    streams[file]? = some stream ∧ first + query.width ≤ stream.length ∧
      run = (stream.drop first).take query.width ∧
      run.map Token.identity = query.identities ∧
      (run.map (fun token => token.start.line)).min? = some low ∧
      (run.map Token.lastLine).max? = some high ∧
      found = ⟨file, first, first + query.width - 1, .integer low, .integer high⟩

def Match.before (a b : Match) : Prop :=
  a.file < b.file ∨ (a.file = b.file ∧ a.first < b.first)

namespace Search

theorem isOf_seen (token : Token) (identity : Identity) :
    token.seen.isOf identity = decide (token.identity = identity) := by
  cases identity
  rw [SeenToken.isOf, ← Bool.decide_and]
  exact decide_eq_decide.mpr (by simp [Token.seen, Token.identity])

theorem areOf_seen (run : List Token) (identities : List Identity) :
    areOf (run.map Token.seen) identities = decide (run.map Token.identity = identities) := by
  induction run generalizing identities with
  | nil => cases identities <;> simp [areOf]
  | cons token rest ih =>
      cases identities with
      | nil => simp [areOf]
      | cons identity others => simp [areOf, isOf_seen, ih, Bool.decide_and]

theorem leastLine_seen (first : Token) (rest : List Token) :
    leastLine first.seen (rest.map Token.seen) =
      .integer ((rest.map (fun token => token.start.line)).foldl min first.start.line) := by
  have step (line : Int) : (rest.map Token.seen).foldl
      (fun line token => if line.precedes token.start.line then line else token.start.line)
      (.integer line) = .integer ((rest.map (fun token => token.start.line)).foldl min line) := by
    induction rest generalizing line with
    | nil => rfl
    | cons token rest ih =>
        rw [List.map_cons, List.foldl_cons, List.map_cons, List.foldl_cons, ← ih]
        congr 1
        simp only [Token.seen, Position.spot, Cell.precedes_integer, decide_eq_true_eq, Int.min_def]
        split <;> rfl
  exact step first.start.line

theorem greatestLine_seen (first : Token) (rest : List Token) :
    greatestLine first.seen (rest.map Token.seen) =
      .integer ((rest.map Token.lastLine).foldl max first.lastLine) := by
  have step (line : Int) : (rest.map Token.seen).foldl
      (fun line token => if token.stop.line.precedes line then line else token.stop.line)
      (.integer line) = .integer ((rest.map Token.lastLine).foldl max line) := by
    induction rest generalizing line with
    | nil => rfl
    | cons token rest ih =>
        rw [List.map_cons, List.foldl_cons, List.map_cons, List.foldl_cons, ← ih]
        congr 1
        simp only [Token.seen, Position.spot, Cell.precedes_integer, decide_eq_true_eq, Int.max_def,
          Token.lastLine]
        split <;> split <;> simp <;> omega
  exact step first.lastLine

/-- The match at place `start` of a stream, if there is one. -/
def streamMatch (query : Query) (file : Int) (stream : List Token) (start : Int) : Option Match :=
  matchAt query file start ((Data.slice stream start (start + query.width)).map Token.seen)

theorem width_pos (query : Query) : 0 < query.width :=
  List.length_pos_iff.mpr query.nonempty

theorem streamMatch_of_short {query : Query} {file : Int} {stream : List Token} {start : Int}
    (nonneg : 0 ≤ start) (short : ¬ start + query.width ≤ stream.length) :
    streamMatch query file stream start = none := by
  have size : (Data.slice stream start (start + query.width)).length < query.width := by
    simp only [Data.slice, Data.clamp, List.length_take, List.length_drop]
    have first : ¬ start < 0 := by omega
    have stop : ¬ start + (query.width : Int) < 0 := by omega
    rw [if_neg first, if_neg stop]
    have positive := width_pos query
    omega
  unfold streamMatch
  generalize Data.slice stream start (start + query.width) = run at size
  cases run with
  | nil => rfl
  | cons token rest =>
      have differs : ¬ (token :: rest).map Token.identity = query.identities := by
        intro same
        have length := congrArg List.length same
        simp only [List.length_map, Query.identities] at length
        exact absurd size (by rw [length]; exact Nat.lt_irrefl _)
      rw [← decide_eq_false_iff_not, ← areOf_seen] at differs
      rw [List.map_cons] at differs ⊢
      rw [matchAt, differs]
      rfl

theorem matchesIn_eq {query : Query} {file : Int} {window : Window} {stream : List Token}
    (spans : window.Spans query.width) (ordered : window.starts.Pairwise (· ≤ ·))
    (nonneg : 0 ≤ window.first) (inside : window.stop ≤ stream.length) :
    matchesIn query file window ((Data.slice stream window.first window.stop).map Token.seen) =
      window.starts.filterMap (streamMatch query file stream) := by
  refine List.filterMap_congr (fun start member => ?_)
  have after := spans.first_le ordered start member
  have before := spans.le_stop ordered start member
  simp only [Data.sliceRow_toArray, streamMatch, Data.slice_map,
    ← Data.slice_slice nonneg inside after before (Int.natCast_nonneg _)]

theorem searchWindows_eq {reader : Reader} {streams : List (List Token)} {query : Query}
    {file : Nat} {stream : List Token} (presents : reader.Presents streams)
    (held : streams[file]? = some stream) {windows : List Window}
    (spans : ∀ window ∈ windows, window.Spans query.width)
    (ordered : ∀ window ∈ windows, window.starts.Pairwise (· ≤ ·))
    (fits : ∀ window ∈ windows, ∀ start ∈ window.starts,
      0 ≤ start ∧ start + query.width ≤ stream.length) :
    searchWindows reader query file windows =
      ⟨(windows.flatMap Window.starts).filterMap (streamMatch query file stream), none⟩ := by
  induction windows with
  | nil => rfl
  | cons window rest ih =>
      have span := spans window List.mem_cons_self
      have order := ordered window List.mem_cons_self
      have fit := fits window List.mem_cons_self
      obtain ⟨last, lastMem, stop⟩ := span.exists_stop
      have nonneg := (fit _ span.first_mem).1
      have inside : window.stop ≤ stream.length := stop ▸ (fit last lastMem).2
      have forward : window.first ≤ window.stop := by
        have := span.first_le order last lastMem
        omega
      rw [searchWindows, presents.window file stream _ _ held nonneg forward inside]
      simp only [ih (fun w m => spans w (List.mem_cons_of_mem _ m))
        (fun w m => ordered w (List.mem_cons_of_mem _ m))
        (fun w m => fits w (List.mem_cons_of_mem _ m)), Yield.append, List.flatMap_cons,
        List.filterMap_append, matchesIn_eq span order nonneg inside]

theorem searchFile_eq {reader : Reader} {streams : List (List Token)} {query : Query}
    {file : Nat} {stream : List Token} (presents : reader.Presents streams)
    (held : streams[file]? = some stream) {places : List Int}
    (ordered : places.Pairwise (· ≤ ·)) (nonneg : ∀ place ∈ places, 0 ≤ place) :
    searchFile reader query file places =
      ⟨places.filterMap (streamMatch query file stream), none⟩ := by
  have listed : (reader.entries.map FileEntry.tokenCount)[file]? = some (.integer stream.length) := by
    rw [presents.counts, List.getElem?_map, held]
    rfl
  obtain ⟨entry, found, count⟩ := Option.map_eq_some_iff.mp (List.getElem?_map ▸ listed)
  have opened : reader.entry file = .ok entry := by
    rw [Reader.entry, Data.at?_natCast, found]
  have kept : places.filter (fun place =>
      (Cell.integer (place + query.width)).precedes entry.tokenCount) =
      places.filter (fun place => decide (place + (query.width : Int) ≤ stream.length)) := by
    rw [count]
    simp only [Cell.precedes_integer]
  rw [searchFile, opened]
  simp only [kept]
  generalize shown : places.filter
    (fun place => decide (place + (query.width : Int) ≤ stream.length)) = starts
  have sub : starts.Sublist places := shown ▸ List.filter_sublist
  rw [searchWindows_eq presents held windows_spans
    (fun window member => (ordered.sublist sub).sublist (starts_sublist member)), windows_starts]
  · rw [← shown, List.filterMap_filter]
    congr 1
    refine List.filterMap_congr (fun place member => ?_)
    by_cases fits : place + query.width ≤ stream.length
    · simp [fits]
    · simp [fits, streamMatch_of_short (nonneg place member) fits]
  · intro window member start inside
    have mem := (starts_sublist member).subset inside
    rw [← shown, List.mem_filter] at mem
    exact ⟨nonneg start mem.1, by simpa using mem.2⟩

theorem group_flatten (postings : List Posting) :
    (group postings).flatMap (fun part => part.2.map (Posting.mk part.1)) = postings := by
  fun_induction group postings with
  | case1 => rfl
  | case2 posting rest others places cut ih =>
      rw [cut] at ih
      simpa using ih
  | case3 posting rest file places others cut differs ih =>
      rw [cut] at ih
      simpa using ih
  | case4 posting rest cut ih =>
      rw [cut] at ih
      simpa using ih

theorem group_nonempty (postings : List Posting) : ∀ part ∈ group postings, part.2 ≠ [] := by
  fun_induction group postings with
  | case1 => simp
  | case2 posting rest others places cut ih =>
      rw [cut] at ih
      intro part member
      rcases List.mem_cons.mp member with rfl | later
      · simp
      · exact ih part (List.mem_cons_of_mem _ later)
  | case3 posting rest file places others cut differs ih =>
      rw [cut] at ih
      intro part member
      rcases List.mem_cons.mp member with rfl | later
      · simp
      · exact ih part later
  | case4 posting rest cut ih => simp

theorem group_sublist {postings : List Posting} {part : Int × List Int}
    (member : part ∈ group postings) : (part.2.map (Posting.mk part.1)).Sublist postings := by
  have inside := List.sublist_flatten_of_mem
    (List.mem_map_of_mem (f := fun part => part.2.map (Posting.mk part.1)) member)
  rwa [← List.flatMap_def, group_flatten] at inside

theorem searchGroups_eq {reader : Reader} {query : Query} {parts : List (Int × List Int)}
    {found : Posting → Option Match}
    (each : ∀ part ∈ parts, searchFile reader query part.1 part.2 =
      ⟨(part.2.map (Posting.mk part.1)).filterMap found, none⟩) :
    searchGroups reader query parts =
      ⟨(parts.flatMap (fun part => part.2.map (Posting.mk part.1))).filterMap found, none⟩ := by
  induction parts with
  | nil => rfl
  | cons part rest ih =>
      rw [searchGroups, each part List.mem_cons_self,
        ih (fun other member => each other (List.mem_cons_of_mem _ member)), List.flatMap_cons,
        List.filterMap_append, Yield.append]

def matchOf (streams : List (List Token)) (query : Query) (posting : Posting) : Option Match :=
  streamMatch query posting.file (streams[posting.file.toNat]?.getD []) posting.token

/-- Cutting the candidates into files and windows changes nothing: each candidate is looked at in
its stream, in the order of the candidates. -/
theorem verify_eq {reader : Reader} {streams : List (List Token)} {query : Query}
    {candidates : List Posting} {identity : Identity} (presents : reader.Presents streams)
    (ordered : candidates.Pairwise (fun a b => a.before b))
    (occur : ∀ posting ∈ candidates, Occurs streams identity posting) :
    verify reader query candidates = ⟨candidates.filterMap (matchOf streams query), none⟩ := by
  have each : ∀ part ∈ group candidates, searchFile reader query part.1 part.2 =
      ⟨(part.2.map (Posting.mk part.1)).filterMap (matchOf streams query), none⟩ := by
    rintro ⟨file, places⟩ member
    have sub := group_sublist member
    have held : ∀ place ∈ places, Occurs streams identity ⟨file, place⟩ := fun place inside =>
      occur _ (sub.subset (List.mem_map_of_mem inside))
    obtain ⟨place, inside⟩ := List.exists_mem_of_ne_nil _ (group_nonempty candidates _ member)
    obtain ⟨number, _, stream, _, known, _, _, same⟩ := held place inside
    obtain rfl : file = number := congrArg Posting.file same
    have ascending : places.Pairwise (· ≤ ·) := by
      have sorted := List.pairwise_map.mp (ordered.sublist sub)
      refine sorted.imp (fun {a b} before => ?_)
      simp only [Posting.before, Int.lt_irrefl, decide_false, decide_true, Bool.false_or,
        Bool.true_and, decide_eq_true_eq] at before
      omega
    have nonneg : ∀ place ∈ places, 0 ≤ place := by
      intro place inside
      obtain ⟨_, index, _, _, _, _, _, same⟩ := held place inside
      rw [show place = index from congrArg Posting.token same]
      exact Int.natCast_nonneg _
    rw [searchFile_eq presents known ascending nonneg, List.filterMap_map]
    refine congrArg (Yield.mk · none) (List.filterMap_congr (fun place _ => ?_))
    simp [matchOf, known]
  rw [verify, searchGroups_eq each, group_flatten]

theorem streamMatch_iff {query : Query} {file : Int} {stream : List Token} {first : Nat}
    {found : Match} :
    streamMatch query file stream first = some found ↔
      first + query.width ≤ stream.length ∧
        ((stream.drop first).take query.width).map Token.identity = query.identities ∧
        ∃ low high,
          (((stream.drop first).take query.width).map (fun token => token.start.line)).min? =
            some low ∧
          (((stream.drop first).take query.width).map Token.lastLine).max? = some high ∧
          found = ⟨file, first, first + query.width - 1, .integer low, .integer high⟩ := by
  by_cases fits : first + query.width ≤ stream.length
  · have size : ((stream.drop first).take query.width).length = query.width := by
      rw [List.length_take, List.length_drop]
      omega
    have positive := width_pos query
    rw [streamMatch, Data.slice_at fits]
    generalize (stream.drop first).take query.width = run at size
    cases run with
    | nil => exact absurd size (by simp; omega)
    | cons token rest =>
        have same := areOf_seen (token :: rest) query.identities
        rw [List.map_cons] at same
        rw [List.map_cons, matchAt, same, leastLine_seen, greatestLine_seen, List.map_cons,
          List.map_cons, List.map_cons, List.min?_cons', List.max?_cons']
        simp [fits, eq_comm]
  · have none_ : streamMatch query file stream first = none :=
      streamMatch_of_short (Int.natCast_nonneg _) (by omega)
    simp [none_, fits]

theorem place_of_matchOf {streams : List (List Token)} {query : Query} {posting : Posting}
    {found : Match} (shown : matchOf streams query posting = some found) :
    found.file = posting.file ∧ found.first = posting.token := by
  unfold matchOf streamMatch matchAt at shown
  split at shown
  · contradiction
  · split at shown
    · cases shown
      exact ⟨rfl, rfl⟩
    · contradiction

theorem matchOf_of_stream {streams : List (List Token)} {query : Query} {file place : Nat}
    {stream : List Token} (held : streams[file]? = some stream) :
    matchOf streams query ⟨file, place⟩ = streamMatch query file stream place := by
  simp [matchOf, held]

theorem occurs_first {streams : List (List Token)} {query : Query} {file first : Nat}
    {stream : List Token} (held : streams[file]? = some stream)
    (same : ((stream.drop first).take query.width).map Token.identity = query.identities) :
    Occurs streams query.first.identity ⟨file, first⟩ := by
  have head := congrArg (fun identities => identities[0]?) same
  have positive := width_pos query
  have expected : query.identities[0]? = some query.first.identity := by
    rw [Query.identities, List.getElem?_map, ← List.head?_eq_getElem?,
      List.head?_eq_some_head query.nonempty]
    rfl
  simp only [expected, List.getElem?_map, List.getElem?_take_of_lt positive, List.getElem?_drop,
    Nat.add_zero, Option.map_eq_some_iff] at head
  obtain ⟨token, found, identity⟩ := head
  exact ⟨file, first, stream, token, held, found, identity, rfl⟩

section Candidates

variable {streams : List (List Token)} {query : Query} {candidates : List Posting}

theorem ascending_filterMap_matchOf (ordered : candidates.Pairwise (fun a b => a.before b)) :
    (candidates.filterMap (matchOf streams query)).Pairwise Match.before := by
  refine ordered.filterMap _ (fun {a b} before found shown other seen => ?_)
  obtain ⟨file, first⟩ := place_of_matchOf shown
  obtain ⟨otherFile, otherFirst⟩ := place_of_matchOf seen
  simpa [Match.before, Posting.before, file, first, otherFile, otherFirst] using before

theorem mem_filterMap_matchOf {shown : Match}
    (occur : ∀ posting, posting ∈ candidates ↔ Occurs streams query.first.identity posting) :
    shown ∈ candidates.filterMap (matchOf streams query) ↔ IsMatch streams query shown := by
  rw [List.mem_filterMap]
  constructor
  · rintro ⟨posting, member, found⟩
    obtain ⟨file, first, stream, _, held, _, _, rfl⟩ := (occur posting).mp member
    rw [matchOf_of_stream held] at found
    obtain ⟨fits, same, low, high, least, greatest, rfl⟩ := streamMatch_iff.mp found
    exact ⟨file, first, stream, _, low, high, held, fits, rfl, same, least, greatest, rfl⟩
  · rintro ⟨file, first, stream, _, low, high, held, fits, rfl, same, least, greatest, rfl⟩
    refine ⟨⟨file, first⟩, (occur _).mpr (occurs_first held same), ?_⟩
    rw [matchOf_of_stream held]
    exact streamMatch_iff.mpr ⟨fits, same, low, high, least, greatest, rfl⟩

end Candidates

end Search

namespace Reader

variable {reader : Reader} {query : Query}

/-- A reader has looked at all places where a query may start, and found these matches. -/
structure Verifies (reader : Reader) (query : Query) (candidates : List Posting)
    (found : List Match) : Prop where
  listed : reader.candidates query = .ok candidates
  verified : Search.verify reader query candidates = ⟨found, none⟩
  ascending : found.Pairwise Match.before

theorem Verifies.matches_eq {candidates : List Posting} {found : List Match}
    (verifies : reader.Verifies query candidates found) : reader.matches query = .ok found := by
  rw [Reader.matches, verifies.listed, Data.ok_bind, verifies.verified]
  rfl

/-- A reader that shows some token streams looks at the places of the first token, and finds the runs
of tokens that equal the query. -/
theorem Presents.verifies {streams : List (List Token)} (presents : reader.Presents streams)
    (query : Query) : ∃ candidates found, reader.Verifies query candidates found ∧
      ∀ shown, shown ∈ found ↔ IsMatch streams query shown := by
  obtain ⟨candidates, listed, ordered, occur⟩ := presents.postings query.first.identity
  exact ⟨candidates, _, ⟨listed, Search.verify_eq presents ordered
    (fun posting member => (occur posting).mp member), Search.ascending_filterMap_matchOf ordered⟩,
    fun _ => Search.mem_filterMap_matchOf occur⟩

/-- For a reader that shows some token streams, a search lists exactly the runs of tokens that equal
the query, each once, by file and then by place. -/
theorem matches_exact {streams : List (List Token)} (presents : reader.Presents streams)
    (query : Query) :
    ∃ found, reader.matches query = .ok found ∧ found.Pairwise Match.before ∧
      ∀ shown, shown ∈ found ↔ IsMatch streams query shown := by
  obtain ⟨candidates, found, verifies, exact_⟩ := presents.verifies query
  exact ⟨found, verifies.matches_eq, verifies.ascending, exact_⟩

end Reader

def wordAt (offset : Int) : Token :=
  ⟨.identifier, "x", ⟨offset, 1, offset + 1⟩, ⟨offset + 1, 1, offset + 2⟩⟩

/-- Two files of one word, which the first file holds twice. -/
def wordFiles : List IndexedFile :=
  [⟨0, "a.c", ⟨3, "", none⟩, [wordAt 0, wordAt 2], [120, 32, 120]⟩,
    ⟨1, "b.c", ⟨1, "", none⟩, [wordAt 0], [120]⟩]

theorem wordFiles_dense : Index.Dense wordFiles := by
  intro place file found
  match place with
  | 0 | 1 =>
      cases found
      rfl
  | later + 2 => simp [wordFiles] at found

theorem wordFiles_matches :
    ∃ found, (Index.reader ⟨wordFiles, PostingMap.ofFiles wordFiles⟩).matches
        ⟨"x", [wordAt 0], by simp⟩ = .ok found ∧ found.Pairwise Match.before ∧
      ∀ shown, shown ∈ found ↔
        IsMatch [[wordAt 0, wordAt 2], [wordAt 0]] ⟨"x", [wordAt 0], by simp⟩ shown :=
  Reader.matches_exact (Index.presents_ofFiles wordFiles_dense) _

end TokenSearch
