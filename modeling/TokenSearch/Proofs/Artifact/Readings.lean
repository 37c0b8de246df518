import TokenSearch.Proofs.Artifact.Load
import TokenSearch.Proofs.Artifact.TokenRows
import TokenSearch.Proofs.Data.Assoc
import TokenSearch.Proofs.Search.Agreement

namespace TokenSearch

open Data

theorem TokenKind.name_inj {a b : TokenKind} : a.name = b.name ↔ a = b := by
  constructor
  · intro same
    have known := congrArg TokenKind.ofName? same
    rw [ofName?_name, ofName?_name] at known
    exact Option.some.inj known
  · exact congrArg TokenKind.name

namespace Artifact

/-! What a stored index answers. -/

/-- The header and the entries of a stored index, opened from the given path. -/
def storedOf (index : Index) (root created : String) (path : Path) : Stored :=
  ⟨path, headerRows index index.postings.length root created, index.entries⟩

@[simp]
theorem path_storedOf (index : Index) (root created : String) (path : Path) :
    (storedOf index root created path).path = path := rfl

theorem isSwapped_storedOf (index : Index) (root created : String) (path : Path) :
    (storedOf index root created path).isSwapped = false := by
  have order : headerValue? (headerRows index index.postings.length root created) "byteorder" =
      some (.text nativeOrder) := headerValue?_headerRows (by simp [headerTexts])
  simp [Stored.isSwapped, storedOf, order]

theorem find?_postingRow (postings : PostingMap) (identity : Identity) :
    (postings.map postingRow).find? (fun row =>
        row.kind = .text identity.kind.name && row.text = .text identity.text) =
      (Assoc.get? postings identity).map (fun places => postingRow (identity, places)) := by
  induction postings with
  | nil => rfl
  | cons entry rest ih =>
      obtain ⟨other, places⟩ := entry
      by_cases same : other = identity
      · subst same
        simp [postingRow, Assoc.get?]
      · have differs : ¬ (other.kind.name = identity.kind.name ∧ other.text = identity.text) := by
          rintro ⟨kind, text⟩
          exact same (by cases other; cases identity; simp_all [TokenKind.name_inj])
        rw [List.map_cons, List.find?_cons_of_neg, ih, Assoc.get?, if_neg same]
        simpa [postingRow] using differs

variable {index : Index} {skipped : List SkippedFile} {tables : Tables} {root created : String}
  {path : Path}

/-- A stored index has posting lists only for texts. -/
theorem find?_postingRow_odd (postings : PostingMap) (kind : TokenKind) {text : Cell}
    (odd : ∀ value, text ≠ .text value) :
    (postings.map postingRow).find? (fun row =>
        row.kind = .text kind.name && row.text = text) = none := by
  rw [List.find?_eq_none]
  intro row member
  obtain ⟨entry, _, rfl⟩ := List.mem_map.mp member
  have differs : ¬ Cell.text entry.1.text = text := fun same => odd _ same.symm
  simp [postingRow, differs]

theorem Fitting.postings (fitting : Fitting index)
    (held : tables.postings = some (index.postings.map postingRow)) (identity : SeenIdentity) :
    (storedOf index root created path).postings (.tables tables) identity =
      index.reader.postingsOf identity := by
  obtain ⟨kind, text⟩ := identity
  rw [Stored.postings, Content.table, held]
  cases text with
  | text value =>
      simp only [ok_bind, find?_postingRow index.postings ⟨kind, value⟩, Index.reader,
        Index.postingsOf, Data.Assoc.listOf]
      cases found : Assoc.get? index.postings ⟨kind, value⟩ with
      | none => rfl
      | some places =>
          obtain ⟨blob, encoded, decoded⟩ := Blob.decode_encode (fitting.words _ (Assoc.mem_of_get? found))
          simp only [Option.map_some, postingRow, encoded, isSwapped_storedOf]
          exact decoded _ _
  | null | integer | real | blob =>
      rw [ok_bind]
      simp only
      rw [find?_postingRow_odd]
      · rfl
      · intro value same
        cases same

theorem rowPrecedes_postingRow (a b : Identity × List Posting) :
    Stored.rowPrecedes (postingRow a) (postingRow b) = a.1.precedes b.1 := by
  obtain ⟨⟨kindA, textA⟩, _⟩ := a
  obtain ⟨⟨kindB, textB⟩, _⟩ := b
  simp only [Stored.rowPrecedes, postingRow, Cell.order_text, Identity.precedes]
  by_cases same : kindA = kindB
  · subst same
    simp
  · have differs : ¬ kindA.name = kindB.name := fun equal => same (TokenKind.name_inj.mp equal)
    rw [if_neg same, Bool.eq_iff_iff, decide_eq_true_iff, ← String.not_lt,
      ← Cell.compare_string_eq_gt]
    cases order : compare kindA.name kindB.name with
    | lt => simp
    | eq => exact absurd (Std.compare_eq_iff_eq.mp order) differs
    | gt => simp

theorem identity_postingRow (stored : Stored) (entry : Identity × List Posting) :
    stored.identity (postingRow entry) = .ok entry.1.seen := by
  simp [Stored.identity, Stored.kind, postingRow, Cell.text?, Identity.seen]

theorem identities_eq (held : tables.postings = some (index.postings.map postingRow))
    (stored : Stored) :
    stored.identities (.tables tables) =
      .ok (index.identities.map (fun identity => .ok identity.seen)) := by
  rw [Stored.identities, Content.table, held]
  simp only [ok_bind, pure_eq_ok, Except.ok.injEq]
  rw [← List.map_mergeSort (r := fun a b => a.1.precedes b.1) (f := postingRow)
      (fun a _ b _ => (rowPrecedes_postingRow a b).symm), Index.identities, Assoc.keys,
    ← List.map_mergeSort (r := fun a b => a.1.precedes b.1) (f := Prod.fst) (fun a _ b _ => rfl),
    List.map_map, List.map_map]
  refine List.map_congr_left (fun entry _ => identity_postingRow stored entry)

theorem fits_natCast {n : Nat} (small : (n : Int) < columnLimit) : Cell.fitsColumn n = true := by
  simp only [columnLimit] at small
  simp only [Cell.fitsColumn, Bool.and_eq_true, decide_eq_true_eq]
  omega

/-- Both readers hand out the same tokens of a file, for bounds that a column can hold. -/
theorem window_eq (stored : Stored) (dense : Index.Dense index.files)
    (held : tables.tokens = some (tokenRowsOf index.files)) {number : Nat}
    (known : number < index.files.length) {start stop : Nat}
    (fits : Cell.fitsColumn number = true) (startFits : (start : Int) < columnLimit)
    (stopFits : (stop : Int) < columnLimit) :
    (stored.reader (.ok (.tables tables))).window number start stop =
      index.reader.window number start stop := by
  have file := List.getElem?_eq_getElem known
  have first : max (start : Int) 0 = start := by omega
  have columns : checkColumns [(number : Int), max (start : Int) 0, (stop : Int)] = .ok () := by
    rw [checkColumns_eq_ok, first]
    simp [fits, fits_natCast startFits, fits_natCast stopFits]
  have stored_ : (stored.reader (.ok (.tables tables))).window number start stop =
      .ok ((slice index.files[number].tokens start stop).map Token.seen) := by
    rw [window_reader stored held, columns, ok_bind]
    exact window_tokens stored dense file start stop
  have memory : index.reader.window number start stop =
      .ok ((slice index.files[number].tokens start stop).map Token.seen) := by
    simp only [Index.reader, at?_natCast, List.getElem?_map, file, Option.map_some,
      sliceRow_toArray]
  rw [stored_, memory]

theorem find?_fileRow {files : List IndexedFile} (dense : Index.Dense files) {number : Nat}
    {file : IndexedFile} (held : files[number]? = some file) :
    (files.map fileRow).find? (fun row => decide (row.id = (number : Int))) =
      some (fileRow file) := by
  obtain ⟨bound, found⟩ := List.getElem?_eq_some_iff.mp held
  rw [List.find?_eq_some_iff_getElem]
  refine ⟨?_, number, by simpa using bound, by simp [found], fun earlier less => ?_⟩
  · simp [fileRow, dense number file held]
  · have other := dense earlier files[earlier] (List.getElem?_eq_getElem (by omega))
    simp only [List.getElem_map, fileRow, other]
    simp
    omega

theorem source_eq (stored : Stored) (dense : Index.Dense index.files)
    (held : tables.files = some (index.files.map fileRow)) {number : Nat}
    (known : number < index.files.length) (fits : Cell.fitsColumn number = true) :
    (stored.reader (.ok (.tables tables))).source number = index.reader.source number := by
  have file := List.getElem?_eq_getElem known
  have memory : index.reader.source number = .ok index.files[number].source := by
    simp only [Index.reader, Index.file, at?_natCast, file]
    rfl
  rw [memory]
  simp only [Stored.reader, ok_bind, Stored.source, Content.table, held, checkColumn, fits, if_true,
    find?_fileRow dense file]
  rfl

theorem Fitting.fits_number (fitting : Fitting index) (dense : Index.Dense index.files) {number : Nat}
    (known : number < index.files.length) : Cell.fitsColumn number = true := by
  have id := dense number index.files[number] (List.getElem?_eq_getElem known)
  have fits := fitting.fileNumbers index.files[number] (List.getElem_mem known)
    index.files[number].id (by simp [Artifact.fileNumbers])
  rwa [id] at fits

/-- A stored index gives the answers of the index that was stored. -/
theorem Fitting.agrees (fitting : Fitting index) (dense : Index.Dense index.files)
    (files : tables.files = some (index.files.map fileRow))
    (tokens : tables.tokens = some (tokenRowsOf index.files))
    (postings : tables.postings = some (index.postings.map postingRow)) :
    ((storedOf index root created path).reader (.ok (.tables tables))).Agrees index.reader where
  entries := rfl
  postings := fun identity => fitting.postings postings identity
  identities := identities_eq postings _
  window := by
    intro file start stop nonneg known startLow startHigh stopLow stopHigh
    obtain ⟨number, rfl⟩ := Int.eq_ofNat_of_zero_le nonneg
    obtain ⟨first, rfl⟩ := Int.eq_ofNat_of_zero_le startLow
    obtain ⟨last, rfl⟩ := Int.eq_ofNat_of_zero_le stopLow
    have listed : number < index.files.length := by simpa [Index.reader, Index.entries] using known
    exact window_eq _ dense tokens listed (fitting.fits_number dense listed) startHigh stopHigh
  source := by
    intro file nonneg known
    obtain ⟨number, rfl⟩ := Int.eq_ofNat_of_zero_le nonneg
    have listed : number < index.files.length := by simpa [Index.reader, Index.entries] using known
    exact source_eq _ dense files listed (fitting.fits_number dense listed)

theorem Fitting.bounded (fitting : Fitting index) : index.reader.Bounded where
  counts := by
    intro entry member
    obtain ⟨file, inside, rfl⟩ := List.mem_map.mp member
    have fits := fitting.fileNumbers file inside file.tokens.length (by simp [Artifact.fileNumbers])
    simp only [Cell.fitsColumn, Bool.and_eq_true, decide_eq_true_eq] at fits
    exact ⟨file.tokens.length, rfl, fits.2⟩
  words := by
    rintro ⟨kind, text⟩ places found posting member
    cases text with
    | text value =>
        have listed : index.postingsOf ⟨kind, value⟩ = places := Except.ok.inj found
        rw [← listed, Index.postingsOf, Data.Assoc.listOf] at member
        cases held : Assoc.get? index.postings ⟨kind, value⟩ with
        | none => simp [held] at member
        | some held_ =>
            rw [held] at member
            exact fitting.words _ (Assoc.mem_of_get? held) posting member
    | null | integer | real | blob =>
        cases found
        contradiction

theorem Storable.agrees (storable : Storable index skipped)
    (files : tables.files = some (index.files.map fileRow))
    (tokens : tables.tokens = some (tokenRowsOf index.files))
    (postings : tables.postings = some (index.postings.map postingRow)) :
    ((storedOf index root created path).reader (.ok (.tables tables))).Agrees index.reader :=
  storable.fitting.agrees storable.dense files tokens postings

theorem Storable.bounded (storable : Storable index skipped) : index.reader.Bounded :=
  storable.fitting.bounded

/-- When an index was stored, and for which root, makes no difference to those who read it. -/
theorem reader_tablesOf (index : Index) (rows : List SkippedRow) (path : Path)
    (root other created later : String) :
    (storedOf index root created path).reader (.ok (.tables (tablesOf index rows root created))) =
      (storedOf index other later path).reader
        (.ok (.tables (tablesOf index rows other later))) := by
  simp only [Stored.reader, Reader.mk.injEq]
  refine ⟨rfl, funext (fun identity => ?_), rfl, rfl, rfl, trivial⟩
  simp only [ok_bind, Stored.postings, isSwapped_storedOf]
  rfl

theorem tokenCount_storedOf (countable : Countable index) :
    (storedOf index root created path).tokenCount = .ok index.tokenCount :=
  headerCount_headerRows (by simp [headerTexts]) countable.tokens

theorem skippedFiles_eq (stored : Stored)
    (held : tables.skipped = some (skipped.map SkippedRow.ofFile)) :
    stored.skippedFiles (.tables tables) = .ok ((skipped.mergeSort
      (fun a b => decide (a.path ≤ b.path))).map SkippedRow.ofFile) := by
  rw [Stored.skippedFiles, Content.table, held]
  simp only [ok_bind, pure_eq_ok, Except.ok.injEq]
  rw [List.map_mergeSort (s := fun a b => a.path.precedes b.path)]
  intro a _ b _
  simp [SkippedRow.ofFile]

end Artifact

end TokenSearch
