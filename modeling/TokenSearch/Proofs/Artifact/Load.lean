import TokenSearch.Artifact.Stored
import TokenSearch.Proofs.Artifact.Encode
import TokenSearch.Proofs.Table.Cell
import TokenSearch.Proofs.Text.Numeral

namespace TokenSearch.Artifact

/-! Opening an artifact: its header and its file table read back. -/

open Data

theorem headerValue?_headerRows {index : Index} {postingKeys : Nat} {root created key value : String}
    (listed : (key, value) ∈ headerTexts index postingKeys root created) :
    headerValue? (headerRows index postingKeys root created) key = some (.text value) := by
  simp only [headerTexts, List.mem_cons, Prod.mk.injEq, List.not_mem_nil, or_false] at listed
  rcases listed with ⟨rfl, rfl⟩ | ⟨rfl, rfl⟩ | ⟨rfl, rfl⟩ | ⟨rfl, rfl⟩ | ⟨rfl, rfl⟩ | ⟨rfl, rfl⟩ |
    ⟨rfl, rfl⟩ <;> simp [headerValue?, headerRows, headerTexts]

theorem entriesFrom_of_dense {path : Path} {next : Nat} {rows : List FileRow}
    (dense : ∀ (place : Nat) (row : FileRow), rows[place]? = some row → row.id = (next + place : Nat)) :
    entriesFrom path next rows = .ok (rows.map FileRow.entry) := by
  induction rows generalizing next with
  | nil => rfl
  | cons row rest ih =>
      have first : row.id = next := dense 0 row rfl
      have later : ∀ (place : Nat) (other : FileRow), rest[place]? = some other →
          other.id = (next + 1 + place : Nat) := by
        intro place other found
        rw [dense (place + 1) other found]
        omega
      rw [entriesFrom, if_pos first, ih later, ok_bind, List.map_cons]
      rfl

theorem loadEntries_of_entries {path : Path} {tables : Tables} {rows : List FileRow}
    {files : List IndexedFile} (dense : Index.Dense files) (held : tables.files = some rows)
    (same : rows.map FileRow.entry = files.map IndexedFile.entry) :
    loadEntries path (.tables tables) = .ok (files.map IndexedFile.entry) := by
  have numbered : ∀ (place : Nat) (row : FileRow), rows[place]? = some row → row.id = place := by
    intro place row found
    have entry : (files.map IndexedFile.entry)[place]? = some row.entry := by
      rw [← same, List.getElem?_map, found]
      rfl
    obtain ⟨file, known, equal⟩ := Option.map_eq_some_iff.mp (List.getElem?_map ▸ entry)
    have id : row.id = file.id := (congrArg FileEntry.id equal).symm
    rw [id, dense place file known]
  have ascending : rows.Pairwise (fun a b => decide (a.id ≤ b.id)) := by
    rw [List.pairwise_iff_getElem]
    intro i j iBound jBound less
    rw [numbered i rows[i] (List.getElem?_eq_getElem iBound),
      numbered j rows[j] (List.getElem?_eq_getElem jBound)]
    simp
    omega
  rw [loadEntries, Content.table, held]
  simp only [ok_bind]
  rw [List.mergeSort_of_pairwise ascending, ← same]
  exact entriesFrom_of_dense (fun place row found => by rw [numbered place row found, Nat.zero_add])

/-- Counts that are numbers of tokens are added up. -/
theorem totalTokens_of_counts {entries : List FileEntry} {counts : List Nat}
    (counted : entries.map FileEntry.tokenCount = counts.map (fun count => .integer count)) :
    totalTokens entries = .ok (.integer counts.sum) := by
  have run {add : Cell → FileEntry → Except Fault Cell}
      (step : ∀ (total count : Nat) (entry : FileEntry), entry.tokenCount = .integer count →
        add (.integer total) entry = .ok (.integer (total + count : Nat))) (total : Nat) :
      entries.foldlM add (.integer total) = .ok (.integer (total + counts.sum : Nat)) := by
    induction entries generalizing counts total with
    | nil =>
        rw [List.map_eq_nil_iff.mp counted.symm]
        rfl
    | cons entry rest ih =>
        obtain ⟨count, others, rfl, same, later⟩ := List.map_eq_cons_iff.mp counted.symm
        rw [List.foldlM_cons, step total count entry same.symm, ok_bind, ih later.symm,
          List.sum_cons, Nat.add_assoc]
  rw [← Nat.zero_add counts.sum]
  refine run (fun total count entry same => ?_) 0
  rw [same]
  rfl

theorem totalTokens_entries (index : Index) :
    totalTokens index.entries = .ok (.integer index.tokenCount) := by
  rw [Index.tokenCount_eq]
  refine totalTokens_of_counts ?_
  rw [Index.counts, Index.streams, Index.entries, List.map_map, List.map_map, List.map_map]
  rfl

theorem headerCount_headerRows {path : Path} {index : Index} {postingKeys n : Nat}
    {root created key : String}
    (listed : (key, toString n) ∈ headerTexts index postingKeys root created)
    (short : n < Decimal.tenTo Text.Integer.digitLimit) :
    headerCount path (headerRows index postingKeys root created) key = .ok n := by
  rw [headerCount, headerValue?_headerRows listed]
  simp only [Option.getD_some, Text.Integer.read_toString short]

theorem loadHeader_headerRows {path : Path} {tables : Tables} {index : Index} {postingKeys : Nat}
    {root created : String}
    (held : tables.header = some (headerRows index postingKeys root created)) :
    loadHeader path (.tables tables) = .ok (headerRows index postingKeys root created) := by
  have format : headerValue? (headerRows index postingKeys root created) "format_version" =
      some (.text formatVersion) := headerValue?_headerRows (by simp [headerTexts])
  have complete : requiredKeys.filter (fun key =>
      (headerValue? (headerRows index postingKeys root created) key).isNone) = [] := by
    rw [List.filter_eq_nil_iff]
    intro key required
    simp only [requiredKeys, List.mem_cons, List.not_mem_nil, or_false] at required
    rcases required with rfl | rfl | rfl | rfl | rfl <;>
      rw [headerValue?_headerRows (by simp [headerTexts]; rfl)] <;> simp
  rw [loadHeader, Content.table, held]
  simp only [ok_bind, complete, List.isEmpty_nil, if_true, format, Option.getD_some]
  rfl

/-- The counts of an index are short enough to be read back from the header. -/
structure Countable (index : Index) : Prop where
  files : index.fileCount < Decimal.tenTo Text.Integer.digitLimit
  tokens : index.tokenCount < Decimal.tenTo Text.Integer.digitLimit
  postings : index.postings.length < Decimal.tenTo Text.Integer.digitLimit

/-- With the header and the file table of an index, and as many posting lists, an artifact can be opened,
and tells the same of the files. -/
theorem Countable.load_of_lists {index : Index} (countable : Countable index)
    (dense : Index.Dense index.files) {tables : Tables} {root created : String}
    (header : tables.header = some (headerRows index index.postings.length root created))
    (files : tables.files = some (index.files.map fileRow))
    {lists : List PostingRow} (postings : tables.postings = some lists)
    (length : lists.length = index.postings.length) (path : Path) :
    Stored.load path (.tables tables) =
      .ok ⟨path, headerRows index index.postings.length root created, index.entries⟩ := by
  have entries : loadEntries path (.tables tables) = .ok index.entries :=
    loadEntries_of_entries dense files (by rw [List.map_map]; rfl)
  have fileCount : headerCount path (headerRows index index.postings.length root created)
      "file_count" = .ok index.fileCount :=
    headerCount_headerRows (by simp [headerTexts]) countable.files
  have tokenCount : headerCount path (headerRows index index.postings.length root created)
      "token_count" = .ok index.tokenCount :=
    headerCount_headerRows (by simp [headerTexts]) countable.tokens
  have postingKeys : headerCount path (headerRows index index.postings.length root created)
      "posting_keys" = .ok index.postings.length :=
    headerCount_headerRows (by simp [headerTexts]) countable.postings
  have size : index.entries.length = index.fileCount := List.length_map _
  have checked : checkHeader path (.tables tables)
      (headerRows index index.postings.length root created) index.entries = .ok () := by
    rw [checkHeader, fileCount, ok_bind, tokenCount, ok_bind, postingKeys, ok_bind, size,
      if_neg (by simp), totalTokens_entries, ok_bind, Cell.agrees_integer]
    simp only [decide_true, Bool.not_true, Bool.false_eq_true, if_false, Content.table, postings,
      ok_bind, length, ne_eq, not_true]
    rfl
  rw [Stored.load, loadHeader_headerRows header, ok_bind, entries, ok_bind, checked]
  rfl

/-- The artifact of an index can be opened, and tells the same of the files. -/
theorem Countable.load {index : Index} (countable : Countable index)
    (dense : Index.Dense index.files) {tables : Tables} {root created : String}
    (header : tables.header = some (headerRows index index.postings.length root created))
    (files : tables.files = some (index.files.map fileRow))
    (postings : tables.postings = some (index.postings.map postingRow)) (path : Path) :
    Stored.load path (.tables tables) =
      .ok ⟨path, headerRows index index.postings.length root created, index.entries⟩ :=
  countable.load_of_lists dense header files postings (List.length_map _) path

theorem short_of_le {n : Nat} (small : n ≤ Decimal.twoTo 126) :
    n < Decimal.tenTo Text.Integer.digitLimit := by
  have grows {m k : Nat} (below : m ≤ k) : Decimal.tenTo m ≤ Decimal.tenTo k :=
    Nat.pow_le_pow_right (by decide) below
  calc n
    _ ≤ Decimal.twoTo 126 := small
    _ < Decimal.tenTo 38 := by decide
    _ ≤ Decimal.tenTo Text.Integer.digitLimit := grows (by decide)

theorem small_of_fits {n : Nat} (fits : Cell.fitsColumn n = true) : n < Decimal.twoTo 63 := by
  have limit : Decimal.twoTo 63 = 9223372036854775808 := rfl
  simp only [Cell.fitsColumn, Bool.and_eq_true, decide_eq_true_eq] at fits
  omega

theorem short_of_fits {n : Nat} (fits : Cell.fitsColumn n = true) :
    n < Decimal.tenTo Text.Integer.digitLimit :=
  short_of_le (Nat.le_of_lt (Nat.lt_trans (small_of_fits fits) (by decide)))

theorem Storable.countable {index : Index} {skipped : List SkippedFile}
    (storable : Storable index skipped) : Countable index where
  files := short_of_fits storable.fileCount
  tokens := short_of_fits storable.tokenCount
  postings := short_of_fits storable.postingKeys

theorem tokenCount_le {files : List IndexedFile} {bound : Nat}
    (each : ∀ file ∈ files, file.tokens.length ≤ bound) (postings : PostingMap) :
    Index.tokenCount ⟨files, postings⟩ ≤ files.length * bound := by
  unfold Index.tokenCount
  induction files with
  | nil => exact Nat.zero_le _
  | cons file rest ih =>
      have first := each file List.mem_cons_self
      have later := ih (fun other member => each other (List.mem_cons_of_mem _ member))
      simp only at later
      rw [List.foldr_cons, List.length_cons, Nat.succ_mul]
      omega

theorem length_identities (files : List IndexedFile) (postings : PostingMap) :
    (files.flatMap (fun file => file.tokens.map Token.identity)).length =
      Index.tokenCount ⟨files, postings⟩ := by
  unfold Index.tokenCount
  simp only
  induction files with
  | nil => rfl
  | cons file rest ih =>
      rw [List.flatMap_cons, List.length_append, List.length_map, ih, List.foldr_cons]

theorem length_ofFiles_le (files : List IndexedFile) :
    (PostingMap.ofFiles files).length ≤ Index.tokenCount ⟨files, PostingMap.ofFiles files⟩ := by
  rw [← length_identities, PostingMap.ofFiles, List.length_map]
  exact length_distinctFrom_le [] _

/-- Files whose numbers fit are few enough to be counted, and so are their tokens. -/
theorem counts_of_fits {files : List IndexedFile} (dense : Index.Dense files)
    (fit : ∀ file ∈ files, ∀ n ∈ fileNumbers file, Cell.fitsColumn n = true)
    (postings : PostingMap) :
    files.length ≤ Decimal.twoTo 63 ∧ Index.tokenCount ⟨files, postings⟩ ≤ Decimal.twoTo 126 := by
  have few : files.length ≤ Decimal.twoTo 63 := by
    cases size : files.length with
    | zero => exact Nat.zero_le _
    | succ last =>
        have held : files[last]? = some files[last] := List.getElem?_eq_getElem (by omega)
        have id := dense last files[last] held
        have fits := fit files[last] (List.getElem_mem _) files[last].id (by simp [fileNumbers])
        rw [id] at fits
        exact small_of_fits fits
  have each : ∀ file ∈ files, file.tokens.length ≤ Decimal.twoTo 63 := fun file member =>
    Nat.le_of_lt (small_of_fits (fit file member file.tokens.length (by simp [fileNumbers])))
  refine ⟨few, ?_⟩
  calc Index.tokenCount ⟨files, postings⟩
    _ ≤ files.length * Decimal.twoTo 63 := tokenCount_le each _
    _ ≤ Decimal.twoTo 63 * Decimal.twoTo 63 := Nat.mul_le_mul_right _ few
    _ = Decimal.twoTo 126 := by decide

theorem countable_of_fits {index : Index} (dense : Index.Dense index.files)
    (fit : ∀ file ∈ index.files, ∀ n ∈ fileNumbers file, Cell.fitsColumn n = true)
    (few : index.postings.length < Decimal.tenTo Text.Integer.digitLimit) : Countable index := by
  obtain ⟨files, tokens⟩ := counts_of_fits dense fit index.postings
  exact ⟨short_of_le (Nat.le_trans files (by decide)), short_of_le tokens, few⟩

theorem countable_ofFiles {files : List IndexedFile} (dense : Index.Dense files)
    (fit : ∀ file ∈ files, ∀ n ∈ fileNumbers file, Cell.fitsColumn n = true) :
    Countable ⟨files, PostingMap.ofFiles files⟩ := by
  obtain ⟨_, tokens⟩ := counts_of_fits dense fit (PostingMap.ofFiles files)
  exact countable_of_fits dense fit
    (short_of_le (Nat.le_trans (length_ofFiles_le files) tokens))

theorem path_of_load {path : Path} {content : Content} {stored : Stored}
    (opened : Stored.load path content = .ok stored) : stored.path = path := by
  obtain ⟨_, _, opened⟩ := bind_eq_ok.mp opened
  obtain ⟨_, _, opened⟩ := bind_eq_ok.mp opened
  obtain ⟨_, _, opened⟩ := bind_eq_ok.mp opened
  cases opened
  rfl

/-- Whatever else an artifact holds, it opens with the entries that its file table tells. -/
theorem entries_of_load {path : Path} {tables : Tables} {rows : List FileRow}
    {files : List IndexedFile} {stored : Stored} (dense : Index.Dense files)
    (held : tables.files = some rows)
    (same : rows.map FileRow.entry = files.map IndexedFile.entry)
    (opened : Stored.load path (.tables tables) = .ok stored) :
    stored.entries = files.map IndexedFile.entry := by
  obtain ⟨header, _, opened⟩ := bind_eq_ok.mp opened
  obtain ⟨entries, found, opened⟩ := bind_eq_ok.mp opened
  obtain ⟨_, _, opened⟩ := bind_eq_ok.mp opened
  cases opened
  rw [loadEntries_of_entries dense held same] at found
  exact (Except.ok.inj found).symm

end TokenSearch.Artifact
