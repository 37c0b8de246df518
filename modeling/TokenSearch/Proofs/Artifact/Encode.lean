import TokenSearch.Artifact.Encode
import TokenSearch.Proofs.Artifact.Blob
import TokenSearch.Proofs.Data.Result
import TokenSearch.Proofs.Index.Streams

namespace TokenSearch.Artifact

/-! What the tables of an index hold, and which indexes have tables. -/

open Data

theorem checkColumns_eq_ok {numbers : List Int} :
    checkColumns numbers = .ok () ↔ ∀ n ∈ numbers, Cell.fitsColumn n = true := by
  induction numbers with
  | nil => simp [checkColumns]
  | cons n rest ih =>
      rw [checkColumns, checkColumn, List.forall_mem_cons, ← ih, bind_eq_ok]
      split
      · rename_i fits
        simp [fits]
      · rename_i wide
        simp [wide]

theorem rows_of_fileRows {path : Path} {seen : List String} {files : List IndexedFile}
    {rows : List FileRow} (encoded : fileRows path seen files = .ok rows) :
    rows = files.map fileRow := by
  induction files generalizing seen rows with
  | nil =>
      cases encoded
      rfl
  | cons file rest ih =>
      rw [fileRows, bind_eq_ok] at encoded
      obtain ⟨_, _, later⟩ := encoded
      split at later
      · contradiction
      · obtain ⟨others, found, whole⟩ := bind_eq_ok.mp later
        cases whole
        rw [ih found, List.map_cons]

theorem fits_of_fileRows {path : Path} {seen : List String} {files : List IndexedFile}
    {rows : List FileRow} (encoded : fileRows path seen files = .ok rows) :
    ∀ file ∈ files, ∀ n ∈ fileNumbers file, Cell.fitsColumn n = true := by
  induction files generalizing seen rows with
  | nil => simp
  | cons file rest ih =>
      rw [fileRows, bind_eq_ok] at encoded
      obtain ⟨_, columns, later⟩ := encoded
      split at later
      · contradiction
      · obtain ⟨others, found, _⟩ := bind_eq_ok.mp later
        exact List.forall_mem_cons.mpr ⟨checkColumns_eq_ok.mp columns, ih found⟩

theorem distinct_of_fileRows {path : Path} {seen : List String} {files : List IndexedFile}
    {rows : List FileRow} (encoded : fileRows path seen files = .ok rows) :
    (files.map IndexedFile.path).Nodup ∧ ∀ file ∈ files, file.path ∉ seen := by
  induction files generalizing seen rows with
  | nil => simp
  | cons file rest ih =>
      rw [fileRows, bind_eq_ok] at encoded
      obtain ⟨_, _, later⟩ := encoded
      split at later
      · contradiction
      · rename_i unseen
        obtain ⟨others, found, _⟩ := bind_eq_ok.mp later
        obtain ⟨distinct, fresh⟩ := ih found
        refine ⟨List.nodup_cons.mpr ⟨?_, distinct⟩, List.forall_mem_cons.mpr ⟨unseen, ?_⟩⟩
        · intro again
          obtain ⟨other, member, same⟩ := List.mem_map.mp again
          exact fresh other member (same ▸ List.mem_cons_self)
        · intro other member known
          exact fresh other member (List.mem_cons_of_mem _ known)

theorem fileRows_of_distinct {path : Path} {seen : List String} {files : List IndexedFile}
    (fit : ∀ file ∈ files, ∀ n ∈ fileNumbers file, Cell.fitsColumn n = true)
    (fresh : ∀ file ∈ files, file.path ∉ seen) (distinct : (files.map IndexedFile.path).Nodup) :
    fileRows path seen files = .ok (files.map fileRow) := by
  induction files generalizing seen with
  | nil => rfl
  | cons file rest ih =>
      rw [List.map_cons, List.nodup_cons] at distinct
      have unseen : file.path ∉ seen := fresh file List.mem_cons_self
      have later : ∀ other ∈ rest, other.path ∉ file.path :: seen := by
        intro other member known
        rcases List.mem_cons.mp known with same | old
        · exact distinct.1 (same ▸ List.mem_map_of_mem member)
        · exact fresh other (List.mem_cons_of_mem _ member) old
      rw [fileRows, checkColumns_eq_ok.mpr (fit file List.mem_cons_self), ok_bind, if_neg unseen,
        ih (fun other member => fit other (List.mem_cons_of_mem _ member)) later distinct.2]
      rfl

def tokenRowsOf (files : List IndexedFile) : List TokenRow :=
  files.flatMap (fun file => tokenRowsFrom file.id 0 file.tokens)

theorem fits_of_tokenRows {files : List IndexedFile} {rows : List TokenRow}
    (encoded : tokenRows files = .ok rows) : ∀ file ∈ files, ∀ token ∈ file.tokens,
      ∀ n ∈ tokenNumbers token, Cell.fitsColumn n = true := by
  obtain ⟨_, columns, _⟩ := bind_eq_ok.mp encoded
  intro file inFiles token inTokens n number
  exact checkColumns_eq_ok.mp columns n (List.mem_flatMap.mpr
    ⟨file, inFiles, List.mem_flatMap.mpr ⟨token, inTokens, number⟩⟩)

theorem rows_of_tokenRows {files : List IndexedFile} {rows : List TokenRow}
    (encoded : tokenRows files = .ok rows) : rows = tokenRowsOf files := by
  obtain ⟨_, _, whole⟩ := bind_eq_ok.mp encoded
  cases whole
  rfl

theorem tokenRows_of_fits {files : List IndexedFile}
    (fit : ∀ file ∈ files, ∀ token ∈ file.tokens, ∀ n ∈ tokenNumbers token,
      Cell.fitsColumn n = true) : tokenRows files = .ok (tokenRowsOf files) := by
  have columns : checkColumns (files.flatMap (fun file => file.tokens.flatMap tokenNumbers)) =
      .ok () := by
    rw [checkColumns_eq_ok]
    intro n member
    obtain ⟨file, inFiles, inside⟩ := List.mem_flatMap.mp member
    obtain ⟨token, inTokens, number⟩ := List.mem_flatMap.mp inside
    exact fit file inFiles token inTokens n number
  rw [tokenRows, columns]
  rfl

/-- The row of a posting list. A list that has no blob has no row either. -/
def postingRow (entry : Identity × List Posting) : PostingRow :=
  ⟨.text entry.1.kind.name, .text entry.1.text, .blob ((Blob.encode entry.2).toOption.getD [])⟩

theorem rows_of_postingRows {postings : PostingMap} {rows : List PostingRow}
    (encoded : postingRows postings = .ok rows) : rows = postings.map postingRow := by
  induction postings generalizing rows with
  | nil =>
      cases encoded
      rfl
  | cons entry rest ih =>
      obtain ⟨identity, places⟩ := entry
      obtain ⟨blob, written, later⟩ := bind_eq_ok.mp encoded
      obtain ⟨others, found, whole⟩ := bind_eq_ok.mp later
      cases whole
      rw [ih found, List.map_cons, postingRow, written]
      rfl

theorem words_of_postingRows {postings : PostingMap} {rows : List PostingRow}
    (encoded : postingRows postings = .ok rows) : ∀ entry ∈ postings, ∀ posting ∈ entry.2,
      Blob.IsWord posting.file ∧ Blob.IsWord posting.token := by
  induction postings generalizing rows with
  | nil => simp
  | cons entry rest ih =>
      obtain ⟨identity, places⟩ := entry
      obtain ⟨blob, written, later⟩ := bind_eq_ok.mp encoded
      obtain ⟨others, found, _⟩ := bind_eq_ok.mp later
      exact List.forall_mem_cons.mpr ⟨Blob.isWord_of_encode written, ih found⟩

theorem postingRows_of_words {postings : PostingMap}
    (fit : ∀ entry ∈ postings, ∀ posting ∈ entry.2,
      Blob.IsWord posting.file ∧ Blob.IsWord posting.token) :
    postingRows postings = .ok (postings.map postingRow) := by
  induction postings with
  | nil => rfl
  | cons entry rest ih =>
      obtain ⟨identity, places⟩ := entry
      obtain ⟨blob, written, _⟩ := Blob.decode_encode (fit _ List.mem_cons_self)
      rw [postingRows, written, ok_bind,
        ih (fun other member => fit other (List.mem_cons_of_mem _ member)), ok_bind, pure_eq_ok,
        List.map_cons, postingRow, written]
      rfl

/-- The skipped files of which no later one has the same path. -/
def latest (skipped : List SkippedFile) : List SkippedFile :=
  skipped.foldl (fun (rows : List SkippedFile) row =>
    rows.filter (fun other => other.path ≠ row.path) ++ [row]) []

theorem keep_distinct {skipped rows : List SkippedFile}
    (distinct : ((rows ++ skipped).map SkippedFile.path).Nodup) :
    skipped.foldl (fun (rows : List SkippedFile) row =>
      rows.filter (fun other => other.path ≠ row.path) ++ [row]) rows = rows ++ skipped := by
  induction skipped generalizing rows with
  | nil => simp
  | cons row rest ih =>
      have others : rows.filter (fun other => other.path ≠ row.path) = rows := by
        rw [List.filter_eq_self]
        intro other member
        have apart : other.path ≠ row.path := by
          rw [List.map_append, List.nodup_append] at distinct
          exact distinct.2.2 _ (List.mem_map_of_mem member) _ (by simp)
        simpa using apart
      rw [List.foldl_cons, others, ih (by simpa using distinct), List.append_assoc]
      rfl

theorem mem_path_latest {skipped : List SkippedFile} {path : String} :
    path ∈ (latest skipped).map SkippedFile.path ↔ path ∈ skipped.map SkippedFile.path := by
  have step (rows : List SkippedFile) :
      path ∈ (skipped.foldl (fun (rows : List SkippedFile) row =>
          rows.filter (fun other => other.path ≠ row.path) ++ [row]) rows).map SkippedFile.path ↔
        path ∈ (rows ++ skipped).map SkippedFile.path := by
    induction skipped generalizing rows with
    | nil => simp
    | cons row rest ih =>
        rw [List.foldl_cons, ih]
        simp only [List.map_append, List.mem_append, List.map_cons, List.mem_cons, List.map_nil,
          List.not_mem_nil, or_false, List.mem_map, List.mem_filter, decide_eq_true_eq]
        by_cases same : path = row.path
        · simp [same]
        · constructor
          · rintro ((⟨other, ⟨member, _⟩, rfl⟩ | equal) | later)
            · exact .inl ⟨other, member, rfl⟩
            · exact absurd equal same
            · exact .inr (.inr later)
          · rintro (⟨other, member, rfl⟩ | equal | later)
            · exact .inl (.inl ⟨other, ⟨member, same⟩, rfl⟩)
            · exact absurd equal same
            · exact .inr later
  exact step []

theorem skippedRows_eq_ok {skipped : List SkippedFile} {rows : List SkippedRow} :
    skippedRows skipped = .ok rows ↔ (∀ file ∈ skipped, ∀ n ∈ file.offset, Cell.fitsColumn n = true) ∧
      rows = (latest skipped).map SkippedRow.ofFile := by
  have offsets : checkColumns (skipped.filterMap SkippedFile.offset) = .ok () ↔
      ∀ file ∈ skipped, ∀ n ∈ file.offset, Cell.fitsColumn n = true := by
    rw [checkColumns_eq_ok]
    constructor
    · intro fits file member n offset
      exact fits n (List.mem_filterMap.mpr ⟨file, member, offset⟩)
    · intro fits n member
      obtain ⟨file, inside, offset⟩ := List.mem_filterMap.mp member
      exact fits file inside n offset
  rw [← offsets]
  constructor
  · intro found
    obtain ⟨_, columns, found⟩ := bind_eq_ok.mp found
    cases found
    exact ⟨columns, rfl⟩
  · rintro ⟨columns, rfl⟩
    rw [skippedRows, columns]
    rfl

theorem skippedRows_of_distinct {skipped : List SkippedFile}
    (distinct : (skipped.map SkippedFile.path).Nodup)
    (fit : ∀ file ∈ skipped, ∀ n ∈ file.offset, Cell.fitsColumn n = true) :
    skippedRows skipped = .ok (skipped.map SkippedRow.ofFile) := by
  rw [skippedRows_eq_ok, latest, @keep_distinct _ [] distinct]
  exact ⟨fit, rfl⟩

/-- The tables in which an index is kept, with the rows of the skipped files. -/
def tablesOf (index : Index) (rows : List SkippedRow) (kept created : String) : Tables where
  header := some (headerRows index index.postings.length kept created)
  files := some (index.files.map fileRow)
  tokens := some (tokenRowsOf index.files)
  postings := some (index.postings.map postingRow)
  skipped := some rows

/-- No path of an index stands twice, and its numbers fit into their columns and words. -/
structure Fitting (index : Index) : Prop where
  paths : (index.files.map IndexedFile.path).Nodup
  fileNumbers : ∀ file ∈ index.files, ∀ n ∈ fileNumbers file, Cell.fitsColumn n = true
  tokenNumbers : ∀ file ∈ index.files, ∀ token ∈ file.tokens, ∀ n ∈ tokenNumbers token,
    Cell.fitsColumn n = true
  words : ∀ entry ∈ index.postings, ∀ posting ∈ entry.2,
    Blob.IsWord posting.file ∧ Blob.IsWord posting.token

theorem tables_of_encode {path : Path} {index : Index} {skipped : List SkippedFile}
    {root : Text.RawText} {created : String} {tables : Tables}
    (encoded : encode path index skipped root created = .ok tables) :
    ∃ kept rows, keepText root = .ok kept ∧ skippedRows skipped = .ok rows ∧
      tables = tablesOf index rows kept created ∧ Fitting index := by
  obtain ⟨files, filesFound, encoded⟩ := bind_eq_ok.mp encoded
  obtain ⟨tokens, tokensFound, encoded⟩ := bind_eq_ok.mp encoded
  obtain ⟨postings, postingsFound, encoded⟩ := bind_eq_ok.mp encoded
  obtain ⟨rows, rowsFound, encoded⟩ := bind_eq_ok.mp encoded
  obtain ⟨kept, keptFound, encoded⟩ := bind_eq_ok.mp encoded
  cases encoded
  refine ⟨kept, rows, keptFound, rowsFound, ?_, (distinct_of_fileRows filesFound).1,
    fits_of_fileRows filesFound, fits_of_tokenRows tokensFound, words_of_postingRows postingsFound⟩
  rw [rows_of_fileRows filesFound, rows_of_tokenRows tokensFound,
    rows_of_postingRows postingsFound, tablesOf, List.length_map]

theorem Fitting.encode {index : Index} (fitting : Fitting index) {skipped : List SkippedFile}
    {rows : List SkippedRow} (left : skippedRows skipped = .ok rows) {root : Text.RawText}
    {kept : String} (sound : keepText root = .ok kept) (path : Path) (created : String) :
    encode path index skipped root created = .ok (tablesOf index rows kept created) := by
  rw [Artifact.encode, tablesOf,
    fileRows_of_distinct fitting.fileNumbers (fun _ _ => List.not_mem_nil) fitting.paths, ok_bind,
    tokenRows_of_fits fitting.tokenNumbers, ok_bind, postingRows_of_words fitting.words, ok_bind,
    left, ok_bind, sound, ok_bind, List.length_map]
  rfl

/-- What an index must satisfy to be stored with a list of skipped files: ids count the files, no
path stands twice, and all numbers fit into their columns and words. -/
structure Storable (index : Index) (skipped : List SkippedFile) : Prop where
  dense : Index.Dense index.files
  paths : (index.files.map IndexedFile.path).Nodup
  fileNumbers : ∀ file ∈ index.files, ∀ n ∈ fileNumbers file, Cell.fitsColumn n = true
  tokenNumbers : ∀ file ∈ index.files, ∀ token ∈ file.tokens, ∀ n ∈ tokenNumbers token,
    Cell.fitsColumn n = true
  words : ∀ entry ∈ index.postings, ∀ posting ∈ entry.2,
    Blob.IsWord posting.file ∧ Blob.IsWord posting.token
  fileCount : Cell.fitsColumn index.fileCount = true
  tokenCount : Cell.fitsColumn index.tokenCount = true
  postingKeys : Cell.fitsColumn index.postings.length = true
  skippedPaths : (skipped.map SkippedFile.path).Nodup
  skippedNumbers : ∀ file ∈ skipped, ∀ n ∈ file.offset, Cell.fitsColumn n = true

theorem Storable.fitting {index : Index} {skipped : List SkippedFile}
    (storable : Storable index skipped) : Fitting index :=
  ⟨storable.paths, storable.fileNumbers, storable.tokenNumbers, storable.words⟩

theorem Storable.encode {index : Index} {skipped : List SkippedFile}
    (storable : Storable index skipped) {root : Text.RawText} {kept : String}
    (sound : keepText root = .ok kept) (path : Path) (created : String) :
    encode path index skipped root created =
      .ok (tablesOf index (skipped.map SkippedRow.ofFile) kept created) :=
  storable.fitting.encode (skippedRows_of_distinct storable.skippedPaths storable.skippedNumbers) sound
    path created

end TokenSearch.Artifact
