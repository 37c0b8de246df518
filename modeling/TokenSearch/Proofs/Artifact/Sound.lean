import Mathlib.Data.List.Perm.Subperm
import TokenSearch.Proofs.Artifact.Readings
import TokenSearch.Proofs.Lexer.Tiling
import TokenSearch.Proofs.Search.Orderly

namespace TokenSearch.Artifact

/-! Tables whose parts fit together. They may lack tables, rows, keys or kinds, and their counts may be
wrong; a search of them still fails with nothing but the fault of a corrupt index. -/

open Data Search Text

/-- Whether the words of posting lists have the other byte order, as a header tells. -/
def isForeign (header : List HeaderRow) : Bool :=
  headerValue? header "byteorder" ≠ some (.text nativeOrder)

/-- The number of tokens fits into a column, and the source is a text. -/
structure FileRow.Readable (row : FileRow) : Prop where
  size : ∀ n, (Cell.integer n).precedes row.tokenCount = true → n < columnLimit
  source : ∃ bytes, row.source = .blob bytes ∧ Utf8.WellFormed bytes

/-- The positions are whole words, and name files of a table of the given length. -/
structure PostingRow.Readable (foreign : Bool) (files : Nat) (row : PostingRow) : Prop where
  whole : ∃ blob, row.positions = .blob blob ∧ 4 ∣ blob.length
  named : ∀ blob path text postings, row.positions = .blob blob →
    Blob.decode path text foreign blob = .ok postings → ∀ posting ∈ postings, posting.file < files

/-- Each row has its place in a file, no other row has that place, and no place before it is free. -/
structure Gapless (rows : List TokenRow) : Prop where
  keyed : ∀ row ∈ rows, ∃ key, row.key? = some key
  apart : rows.Pairwise (fun a b => a.key? ≠ b.key?)
  below : ∀ row ∈ rows, ∀ file place, row.key? = some (file, place) →
    ∀ earlier, 0 ≤ earlier → earlier < place → ∃ other ∈ rows, other.key? = some (file, earlier)

/-- The kept sources are texts, the posting lists are whole words that name kept files, and the token
rows have whole numbers as keys, each row its own, without a gap before it. The offsets in a row stand
between characters of its source. -/
structure Sound (tables : Tables) : Prop where
  measured : Measured tables
  files : ∀ rows, tables.files = some rows → ∀ row ∈ rows, row.Readable
  lists : ∀ header files rows, tables.header = some header → tables.files = some files →
    tables.postings = some rows → ∀ row ∈ rows, row.Readable (isForeign header) files.length
  gapless : ∀ rows, tables.tokens = some rows → Gapless rows
  legible : ∀ files rows, tables.files = some files → tables.tokens = some rows →
    ∀ file ∈ files, ∀ bytes, file.source = .blob bytes → ∀ row ∈ rows, row.file = .integer file.id →
      row.start.Legible bytes ∧ row.stop.Legible bytes

section Rows

variable {rows : List TokenRow} {file first start stop : Int} {row : TokenRow}

theorem mem_windowRows (keyed : ∀ row ∈ rows, ∃ key, row.key? = some key) :
    row ∈ windowRows rows file start stop ↔
      row ∈ rows ∧ ∃ place, row.key? = some (file, place) ∧ max start 0 ≤ place ∧ place < stop := by
  rw [windowRows, List.mem_mergeSort, List.mem_filter]
  refine and_congr_right (fun member => ?_)
  obtain ⟨⟨other, place⟩, named⟩ := keyed row member
  rw [Shelf.mem_windowRows_filter named]
  constructor
  · rintro ⟨rfl, lower, upper⟩
    exact ⟨place, named, lower, upper⟩
  · rintro ⟨_, same, lower, upper⟩
    cases named.symm.trans same
    exact ⟨rfl, lower, upper⟩

/-- Where a place is free, the rows of a window lie before it, each at a place of its own. -/
theorem Gapless.length_windowRows_le (gapless : Gapless rows) (nonneg : 0 ≤ start)
    (free : ∀ row ∈ rows, row.key? ≠ some (file, start)) (first stop : Int) :
    (windowRows rows file first stop).length ≤ (start - max first 0).toNat := by
  have places (row : TokenRow) (member : row ∈ windowRows rows file first stop) :
      ∃ place, row.key? = some (file, place) ∧ max first 0 ≤ place ∧ place < start := by
    obtain ⟨inside, place, named, lower, _⟩ := (mem_windowRows gapless.keyed).mp member
    refine ⟨place, named, lower, Int.not_le.mp (fun behind => ?_)⟩
    -- A row behind the free place would have a row at that place below it.
    rcases Int.lt_or_eq_of_le behind with later | rfl
    · obtain ⟨other, known, taken⟩ := gapless.below row inside file place named start nonneg later
      exact free other known taken
    · exact free row inside named
  have apart : ((windowRows rows file first stop).map Shelf.placeOf).Nodup := by
    have kept : (windowRows rows file first stop).Pairwise (fun a b => a.key? ≠ b.key?) :=
      (List.mergeSort_perm _ _).symm.pairwise (gapless.apart.filter _) (fun differ => differ.symm)
    refine List.pairwise_map.mpr (kept.imp_of_mem (fun {a b} inA inB differ same => differ ?_))
    obtain ⟨m, namedA, _⟩ := places a inA
    obtain ⟨n, namedB, _⟩ := places b inB
    rw [Shelf.placeOf_of_key? namedA, Shelf.placeOf_of_key? namedB] at same
    rw [namedA, namedB, same]
  have inside : (windowRows rows file first stop).map Shelf.placeOf ⊆
      (List.range (start - max first 0).toNat).map (fun (n : Nat) => max first 0 + (n : Int)) := by
    intro place member
    obtain ⟨row, known, rfl⟩ := List.mem_map.mp member
    obtain ⟨place, named, lower, upper⟩ := places row known
    rw [Shelf.placeOf_of_key? named]
    exact List.mem_map.mpr ⟨(place - max first 0).toNat, List.mem_range.mpr (by omega), by omega⟩
  simpa using (List.subperm_of_subset apart inside).length_le

/-- A place before the end of some rows that were read is not free. -/
theorem Gapless.exists_row (gapless : Gapless rows) (some_ : windowRows rows file first stop ≠ [])
    (nonneg : 0 ≤ start) (before : start < first + (windowRows rows file first stop).length) :
    ∃ row ∈ rows, row.key? = some (file, start) := by
  by_contra none_
  have bound := gapless.length_windowRows_le nonneg
    (fun row member taken => none_ ⟨row, member, taken⟩) first stop
  have positive := List.length_pos_iff.mpr some_
  omega

end Rows

section Reading

variable {stored : Stored} {tables : Tables} {path : Path}

theorem rows_of_window {file start stop : Int} {tokens : List SeenToken}
    (read : (stored.reader (.ok (.tables tables))).window file start stop = .ok tokens) :
    ∃ rows, tables.tokens = some rows ∧
      (windowRows rows file start stop).mapM stored.token = .ok tokens := by
  cases held : tables.tokens with
  | none =>
      have absent : stored.shelf (.tables tables) =
          .error (.indexCorrupt stored.path (.noTable TableName.tokens.text)) := by
        rw [Stored.shelf, Content.table, held]
        rfl
      simp only [Stored.reader, Except.bind, absent] at read
      cases read
  | some rows =>
      rw [window_reader stored held] at read
      obtain ⟨_, _, read⟩ := bind_eq_ok.mp read
      exact ⟨rows, rfl, read⟩

theorem row_of_source {file : Int} {bytes : Bytes}
    (read : (stored.reader (.ok (.tables tables))).source file = .ok bytes) :
    ∃ rows, tables.files = some rows ∧ ∃ row ∈ rows, row.id = file ∧
      Stored.sourceBytes row.source = .ok bytes := by
  simp only [Stored.reader, ok_bind, Stored.source] at read
  obtain ⟨rows, table, read⟩ := bind_eq_ok.mp read
  obtain ⟨_, _, read⟩ := bind_eq_ok.mp read
  obtain ⟨_, ⟨⟩, held⟩ := rows_of_table table
  split at read
  · rename_i row found
    exact ⟨rows, held, row, List.mem_of_find?_eq_some found, by simpa using List.find?_some found,
      read⟩
  · cases read

theorem ids_of_entriesFrom {next : Nat} {rows : List FileRow} {entries : List FileEntry}
    (listed : entriesFrom path next rows = .ok entries) : entries.length = rows.length ∧
      ∀ (place : Nat) (entry : FileEntry), entries[place]? = some entry →
        entry.id = (next + place : Nat) := by
  induction rows generalizing next entries with
  | nil =>
      cases listed
      simp
  | cons row rest ih =>
      rw [entriesFrom] at listed
      split at listed
      · rename_i first
        obtain ⟨others, later, listed⟩ := bind_eq_ok.mp listed
        cases listed
        obtain ⟨length, ids⟩ := ih later
        refine ⟨by rw [List.length_cons, List.length_cons, length], fun place entry found => ?_⟩
        cases place with
        | zero =>
            cases found
            exact first
        | succ place =>
            rw [ids place entry found]
            omega
      · cases listed

theorem parts_of_load (opened : Stored.load path (.tables tables) = .ok stored) :
    ∃ files, tables.header = some stored.header ∧ tables.files = some files ∧
      stored.entries.length = files.length ∧ ∀ (place : Nat) (entry : FileEntry),
        stored.entries[place]? = some entry → entry.id = place ∧ ∃ row ∈ files, row.entry = entry := by
  obtain ⟨header, headed, opened⟩ := bind_eq_ok.mp opened
  obtain ⟨entries, listed, opened⟩ := bind_eq_ok.mp opened
  obtain ⟨_, _, opened⟩ := bind_eq_ok.mp opened
  cases opened
  obtain ⟨⟨_, ⟨⟩, top⟩, _⟩ := header_of_loadHeader headed
  obtain ⟨files, table, listed⟩ := bind_eq_ok.mp listed
  obtain ⟨_, ⟨⟩, held⟩ := rows_of_table table
  obtain ⟨length, ids⟩ := ids_of_entriesFrom listed
  refine ⟨files, top, held, by rw [length, List.length_mergeSort], fun place entry found => ?_⟩
  obtain ⟨row, member, same⟩ := mem_entriesFrom listed (List.mem_of_getElem? found)
  have id := ids place entry found
  rw [Nat.zero_add] at id
  exact ⟨id, row, List.mem_mergeSort.mp member, same⟩

/-- Each number below the length of the file table is the number of a row. -/
theorem file_of_load (opened : Stored.load path (.tables tables) = .ok stored) {file : Int}
    (low : 0 ≤ file) (high : file < stored.entries.length) :
    ∃ files, tables.files = some files ∧ ∃ row ∈ files, row.id = file := by
  obtain ⟨files, _, held, _, each⟩ := parts_of_load opened
  obtain ⟨number, rfl⟩ := Int.eq_ofNat_of_zero_le low
  have inside : number < stored.entries.length := by omega
  obtain ⟨id, row, member, same⟩ := each number _ (List.getElem?_eq_getElem inside)
  rw [← same] at id
  exact ⟨files, held, row, member, id⟩

namespace Sound

variable (sound : Sound tables) (opened : Stored.load path (.tables tables) = .ok stored)

include sound opened

theorem fits_file {file : Int} (low : 0 ≤ file) (high : file < stored.entries.length) :
    Cell.fitsColumn file = true := by
  obtain ⟨files, held, row, member, rfl⟩ := file_of_load opened low high
  exact sound.measured.integers files held row member row.id (by simp [Row.cells])

theorem postings_cases (identity : SeenIdentity) :
    CorruptAtWorst (stored.postings (.tables tables) identity) ∧
      ∀ postings, stored.postings (.tables tables) identity = .ok postings → ∀ posting ∈ postings,
        0 ≤ posting.file ∧ posting.file < stored.entries.length ∧ 0 ≤ posting.token := by
  obtain ⟨files, top, held, length, _⟩ := parts_of_load opened
  unfold Stored.postings
  cases rows : tables.postings with
  | none =>
      simp only [Content.table, rows]
      exact ⟨.error _ _, fun _ decoded => by cases decoded⟩
  | some lists =>
      simp only [Content.table, rows, ok_bind]
      split
      · refine ⟨.ok [], ?_⟩
        rintro _ ⟨⟩
        simp
      · rename_i row found
        have readable := sound.lists _ _ _ top held rows row (List.mem_of_find?_eq_some found)
        obtain ⟨blob, positions, whole⟩ := readable.whole
        obtain ⟨numbers, split_, nonneg⟩ := Blob.words_of_dvd whole
        simp only [positions]
        refine ⟨?_, fun postings decoded posting member => ?_⟩
        · rw [Blob.decode, split_, ok_bind]
          split
          · exact .ok _
          · exact .error _ _
        · have known := readable.named blob _ _ postings positions decoded posting member
          rw [Blob.decode, split_, ok_bind] at decoded
          split at decoded
          · rename_i paired
            cases decoded
            obtain ⟨file, token⟩ := Blob.mem_of_pairs paired posting member
            exact ⟨nonneg _ file, by omega, nonneg _ token⟩
          · cases decoded

theorem source_cases {file : Int} (low : 0 ≤ file) (high : file < stored.entries.length) :
    CorruptAtWorst ((stored.reader (.ok (.tables tables))).source file) := by
  obtain ⟨files, _, held, _, _⟩ := parts_of_load opened
  simp only [Stored.reader, ok_bind, Stored.source, Content.table, held, checkColumn,
    sound.fits_file opened low high, if_true]
  split
  · rename_i row found
    obtain ⟨bytes, blob, _⟩ := (sound.files _ held row (List.mem_of_find?_eq_some found)).source
    rw [blob]
    exact .ok bytes
  · exact .error _ _

end Sound

theorem text_of_source (sound : Sound tables) {file : Int} {bytes : Bytes}
    (read : (stored.reader (.ok (.tables tables))).source file = .ok bytes) :
    Utf8.WellFormed bytes ∧ ∃ files, tables.files = some files ∧
      ∃ row ∈ files, row.id = file ∧ row.source = .blob bytes := by
  obtain ⟨files, held, row, member, id, taken⟩ := row_of_source read
  obtain ⟨own, blob, formed⟩ := (sound.files files held row member).source
  rw [blob] at taken
  cases taken
  exact ⟨formed, files, held, row, member, id, blob⟩

theorem spots_of_token {row : TokenRow} {token : SeenToken} (read : stored.token row = .ok token) :
    token.start = row.start ∧ token.stop = row.stop := by
  obtain ⟨kind, _, read⟩ := bind_eq_ok.mp read
  cases read
  exact ⟨rfl, rfl⟩

/-- An artifact whose tables are sound opens as an index whose parts fit together. -/
theorem Sound.orderly (sound : Sound tables)
    (opened : Stored.load path (.tables tables) = .ok stored) :
    (stored.reader (.ok (.tables tables))).Orderly where
  lists := fun identity => (sound.postings_cases opened identity.seen).1
  named := fun identity => (sound.postings_cases opened identity.seen).2
  counts := by
    intro entry member
    obtain ⟨_, rows, ⟨⟩, held, row, inside, rfl⟩ :=
      row_of_loadEntries (entries_eq_of_load opened) member
    exact (sound.files rows held row inside).size
  windows := by
    intro file start stop low high startLow startHigh stopLow stopHigh
    obtain ⟨first, rfl⟩ := Int.eq_ofNat_of_zero_le startLow
    obtain ⟨last, rfl⟩ := Int.eq_ofNat_of_zero_le stopLow
    have nonneg : max (first : Int) 0 = first := by omega
    refine CorruptAtWorst.window stored _ (sound.fits_file opened low high) ?_ (fits_natCast stopHigh)
    rw [nonneg]
    exact fits_natCast startHigh
  gapless := by
    intro file first stop tokens read some_ start last others nonneg before ordered again
    obtain ⟨rows, held, seen⟩ := rows_of_window read
    obtain ⟨_, same, shown⟩ := rows_of_window again
    cases held.symm.trans same
    have gapless := sound.gapless rows held
    rw [length_of_mapM seen] at before
    rw [← List.length_pos_iff, length_of_mapM seen, List.length_pos_iff] at some_
    rw [← List.length_pos_iff, length_of_mapM shown]
    obtain ⟨row, member, named⟩ := gapless.exists_row some_ nonneg before
    exact List.length_pos_of_mem
      ((mem_windowRows gapless.keyed).mpr ⟨member, start, named, by omega, ordered⟩)
  sources := fun _ low high => sound.source_cases opened low high
  texts := fun _ _ read => (text_of_source sound read).1
  legible := by
    intro file start stop tokens source read told token member
    obtain ⟨rows, held, seen⟩ := rows_of_window read
    obtain ⟨row, taken, shown⟩ := (mem_of_mapM seen).mp member
    obtain ⟨inside, place, named, _⟩ := (mem_windowRows (sound.gapless rows held).keyed).mp taken
    obtain ⟨_, files, known, owner, listed, rfl, blob⟩ := text_of_source sound told
    obtain ⟨begins, ends⟩ := sound.legible files rows known held owner listed source blob row inside
      (TokenRow.key?_eq_some.mp named).1
    obtain ⟨first, last⟩ := spots_of_token shown
    exact ⟨first ▸ begins, last ▸ ends⟩

end Reading

section Built

variable {files : List IndexedFile}

/-- Each token of a text begins and ends behind some characters of the text. -/
theorem behind_of_tiled {before rest : List Char} {tokens : List Token}
    (tiled : Lexer.Tiled before tokens rest) : ∀ token ∈ tokens, ∀ place ∈ [token.start, token.stop],
      ∃ front, front <+: before ++ rest ∧ place = Position.start.advance front := by
  induction tiled with
  | last => exact List.forall_mem_nil _
  | @next before gap piece rest token tokens _ _ _ _ start stop _ ih =>
      refine List.forall_mem_cons.mpr ⟨?_, fun other member => ?_⟩
      · intro place inside
        simp only [List.mem_cons, List.not_mem_nil, or_false] at inside
        rcases inside with rfl | rfl
        · exact ⟨_, by simp, start⟩
        · exact ⟨_, by simp, stop⟩
      · simpa using ih other member

theorem legible_of_tokenize {source : Bytes} {tokens : List Token}
    (accepted : Lexer.tokenize source = .ok tokens) : ∀ token ∈ tokens,
      token.start.spot.Legible source ∧ token.stop.spot.Legible source := by
  obtain ⟨cs, rfl, tiled⟩ := Lexer.tiled_of_tokenize accepted
  intro token member
  have legible {place : Position} (inside : place ∈ [token.start, token.stop]) :
      place.spot.Legible (Utf8.encode cs) := by
    obtain ⟨front, ⟨back, rfl⟩, rfl⟩ := behind_of_tiled tiled token member place inside
    refine ⟨⟨_, rfl, ?_⟩, _, rfl⟩
    rw [Position.start_advance, Position.behind_offset, cut_natCast, Utf8.encode_append,
      List.take_left]
    exact ⟨front, rfl⟩
  exact ⟨legible (by simp), legible (by simp)⟩

theorem mem_tokenRowsOf {row : TokenRow} : row ∈ tokenRowsOf files ↔
    ∃ file ∈ files, ∃ place token, file.tokens[place]? = some token ∧
      tokenRow file.id place token = row := by
  simp only [tokenRowsOf, List.mem_flatMap, tokenRowsFrom_eq, List.mem_map, Prod.exists,
    List.mem_zipIdx_iff_getElem?]
  grind

theorem apart_tokenRowsFrom (file : Int) (place : Nat) (tokens : List Token) :
    (tokenRowsFrom file place tokens).Pairwise (fun a b => a.key? ≠ b.key?) := by
  induction tokens generalizing place with
  | nil => exact .nil
  | cons token rest ih =>
      refine .cons (fun row member same => ?_) (ih (place + 1))
      rw [tokenRowsFrom_eq] at member
      obtain ⟨⟨other, later⟩, inside, rfl⟩ := List.mem_map.mp member
      have bound := List.le_snd_of_mem_zipIdx inside
      change some (file, (place : Int)) = some (file, (later : Int)) at same
      simp only [Option.some.injEq, Prod.mk.injEq, true_and] at same
      omega

theorem gapless_tokenRowsOf (dense : Index.Dense files) : Gapless (tokenRowsOf files) where
  keyed := by
    intro row member
    obtain ⟨file, _, place, token, _, rfl⟩ := mem_tokenRowsOf.mp member
    exact ⟨_, key?_tokenRow ..⟩
  apart := by
    rw [tokenRowsOf, List.pairwise_flatMap]
    refine ⟨fun file _ => apart_tokenRowsFrom file.id 0 file.tokens, ?_⟩
    refine dense.ascending.imp (fun {a b} less row inA other inB same => ?_)
    rw [tokenRowsFrom_eq] at inA inB
    obtain ⟨_, _, rfl⟩ := List.mem_map.mp inA
    obtain ⟨_, _, rfl⟩ := List.mem_map.mp inB
    rw [key?_tokenRow, key?_tokenRow, Option.some.injEq, Prod.mk.injEq] at same
    omega
  below := by
    intro row member owner place named earlier nonneg less
    obtain ⟨file, inside, later, token, held, rfl⟩ := mem_tokenRowsOf.mp member
    cases (key?_tokenRow ..).symm.trans named
    obtain ⟨first, rfl⟩ := Int.eq_ofNat_of_zero_le nonneg
    have bound : first < file.tokens.length := by
      have known := (List.getElem?_eq_some_iff.mp held).1
      omega
    exact ⟨tokenRow file.id first file.tokens[first], mem_tokenRowsOf.mpr
      ⟨file, inside, first, _, List.getElem?_eq_getElem bound, rfl⟩, key?_tokenRow ..⟩

theorem file_of_ofFiles (dense : Index.Dense files) {entry : Identity × List Posting}
    (member : entry ∈ PostingMap.ofFiles files) {posting : Posting} (inside : posting ∈ entry.2) :
    posting.file < files.length := by
  obtain ⟨identity, _, rfl⟩ := List.mem_map.mp member
  obtain ⟨file, known, listed⟩ := List.mem_flatMap.mp inside
  obtain ⟨_, _, _, _, rfl⟩ := Index.mem_positions.mp listed
  obtain ⟨place, found⟩ := List.getElem?_of_mem known
  have bound := (List.getElem?_eq_some_iff.mp found).1
  simp only [dense place file found]
  omega

/-- An artifact that a build has written is sound. -/
theorem sound_tablesOf (dense : Index.Dense files) (fitting : Fitting ⟨files, .ofFiles files⟩)
    (lexed : ∀ file ∈ files, Lexer.tokenize file.source = .ok file.tokens) (rows : List SkippedRow)
    (kept created : String) : Sound (tablesOf ⟨files, .ofFiles files⟩ rows kept created) where
  measured := measured_tablesOf fitting.fileNumbers rows kept created
  files := by
    intro held found row member
    cases found
    obtain ⟨file, inside, rfl⟩ := List.mem_map.mp member
    obtain ⟨cs, same, _⟩ := Lexer.tiled_of_tokenize (lexed file inside)
    refine ⟨fun n less => ?_, file.source, rfl, cs, same.symm⟩
    have fits := fitting.fileNumbers file inside file.tokens.length (by simp [fileNumbers])
    simp only [fileRow, Cell.precedes_integer, decide_eq_true_eq] at less
    simp only [Cell.fitsColumn, Bool.and_eq_true, decide_eq_true_eq] at fits
    simp only [columnLimit]
    omega
  lists := by
    rintro _ _ _ ⟨⟩ ⟨⟩ ⟨⟩ row member
    obtain ⟨entry, inside, rfl⟩ := List.mem_map.mp member
    obtain ⟨blob, encoded, decoded⟩ := Blob.decode_encode (fitting.words entry inside)
    have positions : (postingRow entry).positions = .blob blob := by
      simp only [postingRow, encoded]
      rfl
    have native := isSwapped_storedOf ⟨files, .ofFiles files⟩ kept created default
    refine ⟨⟨blob, positions, ?_⟩, ?_⟩
    · obtain ⟨numbers, read, _⟩ := bind_eq_ok.mp (decoded default .null)
      exact Blob.dvd_of_words read
    · intro other path text postings same read posting inList
      cases positions.symm.trans same
      change isForeign (headerRows _ _ kept created) = false at native
      rw [native, decoded] at read
      cases read
      rw [List.length_map]
      exact file_of_ofFiles dense inside inList
  gapless := by
    rintro _ ⟨⟩
    exact gapless_tokenRowsOf dense
  legible := by
    rintro _ _ ⟨⟩ ⟨⟩ row member bytes blob other inside same
    obtain ⟨file, known, rfl⟩ := List.mem_map.mp member
    obtain ⟨owner, owned, place, token, held, rfl⟩ := mem_tokenRowsOf.mp inside
    cases blob
    have id : owner.id = file.id := Cell.integer.inj same
    obtain ⟨first, here⟩ := List.getElem?_of_mem owned
    obtain ⟨second, there⟩ := List.getElem?_of_mem known
    rw [dense first owner here, dense second file there, Int.natCast_inj] at id
    cases here.symm.trans (id ▸ there)
    exact legible_of_tokenize (lexed file known) token (List.mem_of_getElem? held)

end Built

end TokenSearch.Artifact
