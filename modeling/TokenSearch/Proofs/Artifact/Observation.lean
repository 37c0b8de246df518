import Mathlib
import TokenSearch.Proofs.Artifact.Bare
import TokenSearch.Proofs.Artifact.Readings

namespace TokenSearch.Store

/-! An index that was saved and opened again tells what it told in memory. -/

open Artifact Data

variable {store : Store} {disk made : Disk} {home : List Text.RawText} {entries : Disk.Entries}
  {index : Index} {skipped : List SkippedFile} {details : Details} {kept : String}

theorem save_load (storable : Storable index skipped) (rooted : keepText details.root = .ok kept)
    (writable : store.Writable disk details.nonce made home entries) :
    ∃ after, store.save disk index skipped details = (.ok store.path, after) ∧
      store.load after = .ok (storedOf index kept details.created store.path) ∧
      contentAt after store.path =
        .ok (.tables (tablesOf index (skipped.map SkippedRow.ofFile) kept details.created)) := by
  obtain ⟨wrote, installed⟩ :=
    writable.save_eq (storable.encode rooted (store.draft details.nonce) details.created)
  refine ⟨_, wrote, ?_, installed.contentAt_eq⟩
  rw [installed.load_eq]
  exact storable.countable.load storable.dense rfl rfl rfl store.path

/-- A bound that no column can hold is refused, where the index in memory cuts it down to the number of
tokens. -/
theorem window_refused {stored : Stored} {tables : Tables} {rows : List TokenRow}
    (held : tables.tokens = some rows) {start stop : Int}
    (wide : columnLimit ≤ start ∨ columnLimit ≤ stop) (file : Int) :
    (stored.reader (.ok (.tables tables))).window file start stop = .error .integerTooWide := by
  have misfit : Cell.fitsColumn (max start 0) = false ∨ Cell.fitsColumn stop = false := by
    simp only [columnLimit] at wide
    simp only [Cell.fitsColumn, Bool.and_eq_false_iff, decide_eq_false_iff_not]
    omega
  have columns : checkColumns [file, max start 0, stop] = .error .integerTooWide := by
    simp only [checkColumns, checkColumn]
    rcases misfit with low | high
    · simp only [low]
      split <;> rfl
    · simp only [high]
      split <;> split <;> rfl
  rw [window_reader stored held, columns]
  rfl

/-- Both readers tell the same of files, tokens, postings and sources, except that the stored one
refuses bounds of a window that no column can hold. So they find the same matches, and pass or fail
the same checks. -/
theorem save_load_agrees (storable : Storable index skipped)
    (rooted : keepText details.root = .ok kept)
    (writable : store.Writable disk details.nonce made home entries) :
    ∃ after stored, store.save disk index skipped details = (.ok store.path, after) ∧
      store.load after = .ok stored ∧
      (stored.reader (contentAt after stored.path)).fileCount = index.fileCount ∧
      stored.tokenCount = .ok index.tokenCount ∧
      (stored.reader (contentAt after stored.path)).Agrees index.reader ∧
      (∀ file start stop : Int, columnLimit ≤ start ∨ columnLimit ≤ stop →
        (stored.reader (contentAt after stored.path)).window file start stop =
          .error .integerTooWide) ∧
      (∀ file, (stored.reader (contentAt after stored.path)).entry file = index.reader.entry file) ∧
      (contentAt after stored.path).bind stored.skippedFiles =
        .ok ((skipped.mergeSort (fun a b => decide (a.path ≤ b.path))).map SkippedRow.ofFile) ∧
      (∀ query, (stored.reader (contentAt after stored.path)).matches query =
        index.reader.matches query) ∧
      (stored.reader (contentAt after stored.path)).validate = index.reader.validate := by
  obtain ⟨after, wrote, opened, content⟩ := save_load storable rooted writable
  refine ⟨after, _, wrote, opened, ?_⟩
  rw [path_storedOf, content]
  have agrees : ((storedOf index kept details.created store.path).reader (.ok (.tables
      (tablesOf index (skipped.map SkippedRow.ofFile) kept details.created)))).Agrees index.reader :=
    storable.agrees rfl rfl rfl
  refine ⟨?_, tokenCount_storedOf storable.countable, agrees,
    fun file _ _ wide => window_refused rfl wide file, fun file => ?_, skippedFiles_eq _ rfl,
    agrees.matches_eq storable.bounded, agrees.validate_eq storable.bounded⟩
  · exact List.length_map _
  · rw [Reader.entry, Reader.entry, agrees.entries]

def bareDisk : Disk := ⟨.nil, [], [], 0, default⟩

def wordIndex : Index := ⟨wordFiles, PostingMap.ofFiles wordFiles⟩

def wordSkipped : List SkippedFile :=
  [⟨"d.c", "lex_error", "unexpected character", some 3⟩, ⟨"c.c", "too_large", "5 bytes", none⟩]

def wordDetails : Details := ⟨Text.RawText.ofString "/", "now", "0"⟩

theorem wordIndex_storable : Storable wordIndex wordSkipped where
  dense := wordFiles_dense
  paths := by decide
  fileNumbers := by decide
  tokenNumbers := by decide
  words := by simp only [Blob.IsWord]; decide
  fileCount := by decide
  tokenCount := by decide
  postingKeys := by decide
  skippedPaths := by decide
  skippedNumbers := by decide

theorem wordDetails_rooted : keepText wordDetails.root = .ok "/" := by cbv

theorem bareDisk_writable : bare.Writable bareDisk "0" bareDisk [] .nil :=
  bare_writable .none rfl

theorem wordIndex_observed :
    ∃ after stored, bare.save bareDisk wordIndex wordSkipped wordDetails = (.ok bare.path, after) ∧
      bare.load after = .ok stored ∧
      (stored.reader (contentAt after stored.path)).fileCount = wordIndex.fileCount ∧
      stored.tokenCount = .ok wordIndex.tokenCount ∧
      (stored.reader (contentAt after stored.path)).Agrees wordIndex.reader ∧
      (∀ file start stop : Int, columnLimit ≤ start ∨ columnLimit ≤ stop →
        (stored.reader (contentAt after stored.path)).window file start stop =
          .error .integerTooWide) ∧
      (∀ file, (stored.reader (contentAt after stored.path)).entry file =
        wordIndex.reader.entry file) ∧
      (contentAt after stored.path).bind stored.skippedFiles =
        .ok (wordSkipped.reverse.map SkippedRow.ofFile) ∧
      (∀ query, (stored.reader (contentAt after stored.path)).matches query =
        wordIndex.reader.matches query) ∧
      (stored.reader (contentAt after stored.path)).validate = wordIndex.reader.validate := by
  have sorted : wordSkipped.mergeSort (fun a b => decide (a.path ≤ b.path)) = wordSkipped.reverse := by
    cbv
  rw [← sorted]
  exact save_load_agrees wordIndex_storable wordDetails_rooted bareDisk_writable

/-- The reader of the saved index does not cut down a bound as the one in memory does. -/
theorem wordIndex_window_differs :
    ∃ after stored, bare.save bareDisk wordIndex wordSkipped wordDetails = (.ok bare.path, after) ∧
      bare.load after = .ok stored ∧
      (stored.reader (contentAt after stored.path)).window 0 0 columnLimit =
        .error .integerTooWide ∧
      wordIndex.reader.window 0 0 columnLimit = .ok [(wordAt 0).seen, (wordAt 2).seen] := by
  obtain ⟨after, wrote, opened, content⟩ :=
    save_load wordIndex_storable wordDetails_rooted bareDisk_writable
  refine ⟨after, _, wrote, opened, ?_, by cbv⟩
  rw [path_storedOf, content]
  exact window_refused rfl (.inr (Int.le_refl _)) 0

end TokenSearch.Store
