import TokenSearch.Index.Validate
import TokenSearch.Proofs.Artifact.Blob
import TokenSearch.Proofs.Data.Result
import TokenSearch.Proofs.Search.Complete

namespace TokenSearch

/-! Two readers that give the same answers wherever a search or a check asks them lead both to the
same end. -/

open Data Artifact

/-- The first number that a column cannot hold. -/
def columnLimit : Int := 9223372036854775808

namespace Reader

/-- Both readers give the same answers, for the files of the table and for bounds that a column can
hold. -/
structure Agrees (left right : Reader) : Prop where
  entries : left.entries = right.entries
  postings : ∀ identity, left.postingsOf identity = right.postingsOf identity
  identities : left.identities = right.identities
  window : ∀ file start stop : Int, 0 ≤ file → file < right.entries.length →
    0 ≤ start → start < columnLimit → 0 ≤ stop → stop < columnLimit →
      left.window file start stop = right.window file start stop
  source : ∀ file : Int, 0 ≤ file → file < right.entries.length →
    left.source file = right.source file

/-- Token counts fit into a column, and the numbers of postings fit into words. -/
structure Bounded (reader : Reader) : Prop where
  counts : ∀ entry ∈ reader.entries,
    ∃ count, entry.tokenCount = .integer count ∧ count < columnLimit
  words : ∀ identity places, reader.postingsOf identity = .ok places → ∀ posting ∈ places,
    Blob.IsWord posting.file ∧ Blob.IsWord posting.token

end Reader

namespace Search

variable {left right : Reader} {query : Query}

theorem searchWindows_congr {file : Int} {windows : List Window}
    (same : ∀ window ∈ windows,
      left.window file window.first window.stop = right.window file window.first window.stop) :
    searchWindows left query file windows = searchWindows right query file windows := by
  induction windows with
  | nil => rfl
  | cons window rest ih =>
      rw [searchWindows, searchWindows, same window List.mem_cons_self,
        ih (fun other member => same other (List.mem_cons_of_mem _ member))]

/-- The windows of a file lie inside the file, so both readers hand out the same tokens. -/
theorem searchFile_congr (agrees : left.Agrees right) (bounded : right.Bounded) {file : Int}
    {places : List Int} (nonneg : 0 ≤ file) (placed : ∀ place ∈ places, 0 ≤ place) :
    searchFile left query file places = searchFile right query file places := by
  have told : left.entry file = right.entry file := by
    rw [Reader.entry, Reader.entry, agrees.entries]
  unfold searchFile
  rw [told]
  cases found : right.entry file with
  | error fault => rfl
  | ok entry =>
      obtain ⟨number, rfl⟩ := Int.eq_ofNat_of_zero_le nonneg
      have listed : right.entries[number]? = some entry := by
        rw [Reader.entry, at?_natCast] at found
        cases held : right.entries[number]? with
        | none => simp [held] at found
        | some other =>
            rw [held] at found
            cases found
            rfl
      obtain ⟨count, counted, limit⟩ := bounded.counts entry (List.mem_of_getElem? listed)
      have inside := (List.getElem?_eq_some_iff.mp listed).1
      refine searchWindows_congr (fun window member => ?_)
      have fits : ∀ start ∈ window.starts, 0 ≤ start ∧ start + query.width ≤ count := by
        intro start mem
        have kept := List.mem_filter.mp ((starts_sublist member).subset mem)
        rw [counted, Cell.precedes_integer] at kept
        exact ⟨placed start kept.1, of_decide_eq_true kept.2⟩
      have spans := windows_spans window member
      obtain ⟨last, lastMem, stop⟩ := spans.exists_stop
      have first := fits _ spans.first_mem
      have final := fits last lastMem
      exact agrees.window _ _ _ (by omega) (by omega) (by omega) (by omega) (by omega) (by omega)

theorem searchGroups_congr (agrees : left.Agrees right) (bounded : right.Bounded)
    {parts : List (Int × List Int)}
    (nonneg : ∀ part ∈ parts, 0 ≤ part.1 ∧ ∀ place ∈ part.2, 0 ≤ place) :
    searchGroups left query parts = searchGroups right query parts := by
  induction parts with
  | nil => rfl
  | cons part rest ih =>
      obtain ⟨file, places⟩ := part
      obtain ⟨first, placed⟩ := nonneg _ List.mem_cons_self
      rw [searchGroups, searchGroups, searchFile_congr agrees bounded first placed,
        ih (fun other member => nonneg other (List.mem_cons_of_mem _ member))]

end Search

namespace Reader.Agrees

variable {left right : Reader} {query : Query}

theorem candidates_eq (agrees : left.Agrees right) (query : Query) :
    left.candidates query = right.candidates query :=
  agrees.postings query.first.identity.seen

theorem verify_eq (agrees : left.Agrees right) (bounded : right.Bounded) {candidates : List Posting}
    (listed : right.candidates query = .ok candidates) :
    Search.verify left query candidates = Search.verify right query candidates := by
  refine Search.searchGroups_congr agrees bounded ?_
  rintro ⟨file, places⟩ member
  have words : ∀ place ∈ places, Blob.IsWord file ∧ Blob.IsWord place := fun place inside =>
    bounded.words _ _ listed ⟨file, place⟩
      ((Search.group_sublist member).subset (List.mem_map_of_mem inside))
  obtain ⟨place, inside⟩ := List.exists_mem_of_ne_nil _ (Search.group_nonempty _ _ member)
  exact ⟨(words place inside).1.1, fun place inside => (words place inside).2.1⟩

theorem matches_eq (agrees : left.Agrees right) (bounded : right.Bounded) (query : Query) :
    left.matches query = right.matches query := by
  unfold Reader.matches
  rw [agrees.candidates_eq]
  cases listed : right.candidates query with
  | error fault => rfl
  | ok candidates => exact congrArg Search.Yield.complete (agrees.verify_eq bounded listed)

theorem verifies (agrees : left.Agrees right) (bounded : right.Bounded) {candidates : List Posting}
    {found : List Match} (verifies : right.Verifies query candidates found) :
    left.Verifies query candidates found where
  listed := (agrees.candidates_eq query).trans verifies.listed
  verified := (agrees.verify_eq bounded verifies.listed).trans verifies.verified
  ascending := verifies.ascending

end Reader.Agrees

namespace Validate

variable {left right : Reader}

theorem checkPosting_congr (agrees : left.Agrees right) {identity : SeenIdentity} {posting : Posting}
    (word : Blob.IsWord posting.token) :
    checkPosting left identity posting = checkPosting right identity posting := by
  unfold checkPosting
  rw [agrees.entries]
  split
  · rename_i known
    have low := word.1
    have high := word.2
    have limit : Blob.wordLimit < columnLimit := by decide
    rw [agrees.window posting.file posting.token (posting.token + 1) known.1 known.2 low (by omega)
      (by omega) (by omega)]
  · rfl

theorem checkList_congr (agrees : left.Agrees right) {identity : SeenIdentity} {postings : List Posting}
    (words : ∀ posting ∈ postings, Blob.IsWord posting.token) (previous : Option Posting) :
    checkList left identity previous postings = checkList right identity previous postings := by
  induction postings generalizing previous with
  | nil => rfl
  | cons posting rest ih =>
      rw [checkList, checkList, checkPosting_congr agrees (words posting List.mem_cons_self),
        ih (fun other member => words other (List.mem_cons_of_mem _ member))]

theorem checkLists_congr (agrees : left.Agrees right) (bounded : right.Bounded)
    (listed : List (Except Fault SeenIdentity)) :
    checkLists left listed = checkLists right listed := by
  induction listed with
  | nil => rfl
  | cons member rest ih =>
      rw [checkLists, checkLists, ih]
      cases member with
      | error fault => rfl
      | ok identity =>
          simp only [ok_bind, agrees.postings]
          cases found : right.postingsOf identity with
          | error fault => rfl
          | ok postings =>
              simp only [ok_bind]
              rw [checkList_congr agrees
                (fun posting inside => (bounded.words identity postings found posting inside).2)]

end Validate

theorem Reader.Agrees.validate_eq {left right : Reader} (agrees : left.Agrees right)
    (bounded : right.Bounded) : left.validate = right.validate := by
  unfold Reader.validate
  rw [agrees.entries, agrees.identities]
  cases right.identities with
  | error fault => rfl
  | ok listed => simp only [ok_bind, Validate.checkLists_congr agrees bounded]

end TokenSearch
