import Mathlib
import TokenSearch.Proofs.Artifact.Load
import TokenSearch.Proofs.Data.Assoc
import TokenSearch.Proofs.Index.Checked
import TokenSearch.Proofs.Search.Complete

namespace TokenSearch

/-! The check of an index in memory tells of nothing exactly if each identity has the list of all its
places. That no place is missing is never looked at: it follows from the number of postings. -/

open Data

theorem Identity.seen_injective : Function.Injective Identity.seen := by
  rintro ⟨kind, text⟩ ⟨otherKind, otherText⟩ same
  cases same
  rfl

namespace Index

variable {index : Index}

theorem length_entries (index : Index) : index.reader.entries.length = index.streams.length := by
  simp [reader, entries, streams]

theorem window_place {file : Nat} {stream : List Token} (known : index.streams[file]? = some stream)
    (place : Nat) : index.reader.window file place (place + 1) =
      .ok (stream[place]?.toList.map Token.seen) := by
  obtain ⟨indexed, found, rfl⟩ := Option.map_eq_some_iff.mp (List.getElem?_map ▸ known)
  have one := slice_natCast indexed.tokens place (place + 1)
  rw [Nat.add_sub_cancel_left, List.take_one, List.head?_drop] at one
  rw [Int.natCast_add, Int.natCast_one] at one
  simp only [reader, at?_natCast, List.getElem?_map, found, Option.map_some, sliceRow_toArray, one]

/-- A posting leads to a token with an identity if the identity stands there. -/
theorem leads_iff {identity : SeenIdentity} {posting : Posting} :
    Validate.Leads index.reader identity posting ↔
      ∃ own : Identity, own.seen = identity ∧ Occurs index.streams own posting := by
  constructor
  · rintro ⟨low, high, nonneg, token, later, window, same⟩
    obtain ⟨file, place⟩ := posting
    obtain ⟨file, rfl⟩ := Int.eq_ofNat_of_zero_le low
    obtain ⟨place, rfl⟩ := Int.eq_ofNat_of_zero_le nonneg
    rw [length_entries] at high
    obtain ⟨stream, known⟩ : ∃ stream, index.streams[file]? = some stream :=
      ⟨_, List.getElem?_eq_getElem (Int.ofNat_lt.mp high)⟩
    rw [window_place known, Except.ok.injEq] at window
    cases found : stream[place]? with
    | none => simp [found] at window
    | some own =>
        simp only [found, Option.toList_some, List.map_cons, List.map_nil, List.cons.injEq] at window
        have shown : own.identity.seen = identity := (congrArg SeenToken.identity window.1).trans same
        exact ⟨own.identity, shown, file, place, stream, own, known, found, rfl, rfl⟩
  · rintro ⟨_, rfl, file, place, stream, token, known, found, rfl, rfl⟩
    have inside := (List.getElem?_eq_some_iff.mp known).1
    refine ⟨Int.natCast_nonneg _, ?_, Int.natCast_nonneg _, token.seen, [], ?_, rfl⟩
    · rw [length_entries]
      exact Int.ofNat_lt.mpr inside
    · rw [window_place known, found]
      rfl

theorem leads_seen_iff {identity : Identity} {posting : Posting} :
    Validate.Leads index.reader identity.seen posting ↔ Occurs index.streams identity posting := by
  rw [leads_iff]
  constructor
  · rintro ⟨own, same, occurs⟩
    exact Identity.seen_injective same ▸ occurs
  · exact fun occurs => ⟨identity, rfl, occurs⟩

/-- At each place of the streams stands one identity. -/
theorem mem_places_iff {posting : Posting} :
    posting ∈ Posting.places index.counts ↔ ∃ identity, Occurs index.streams identity posting := by
  rw [Posting.mem_places]
  constructor
  · rintro ⟨file, place, count, known, inside, rfl⟩
    obtain ⟨stream, held, rfl⟩ := Option.map_eq_some_iff.mp (List.getElem?_map ▸ known)
    exact ⟨_, file, place, stream, stream[place], held, List.getElem?_eq_getElem inside, rfl, rfl⟩
  · rintro ⟨_, file, place, stream, token, held, found, _, rfl⟩
    refine ⟨file, place, stream.length, ?_, (List.getElem?_eq_some_iff.mp found).1, rfl⟩
    rw [counts, List.getElem?_map, held, Option.map_some]

/-- The posting lists that the check goes through. -/
def lists (index : Index) : List (SeenIdentity × List Posting) :=
  index.identities.map (fun identity => (identity.seen, index.postingsOf identity))

theorem mem_identities {identity : Identity} {posting : Posting}
    (member : posting ∈ index.postingsOf identity) : identity ∈ index.identities := by
  rw [identities, List.mem_mergeSort]
  rw [postingsOf, Assoc.listOf] at member
  cases found : Assoc.get? index.postings identity with
  | none => simp [found] at member
  | some postings => exact Assoc.mem_keys_of_get? found

theorem nodup_lists (distinct : (Assoc.keys index.postings).Nodup) :
    (index.lists.map Prod.fst).Nodup := by
  have sorted : index.identities.Nodup := (List.mergeSort_perm _ _).nodup_iff.mpr distinct
  rw [lists, List.map_map]
  exact sorted.map Identity.seen_injective

/-- Each identity has the ascending list of all its places. -/
def Exact (index : Index) : Prop :=
  ∀ identity, (index.postingsOf identity).Pairwise (fun a b => a.before b) ∧
    ∀ posting, posting ∈ index.postingsOf identity ↔ Occurs index.streams identity posting

theorem passes_lists_iff : Validate.Passes index.reader index.lists ↔
    ∀ identity, (index.postingsOf identity).Pairwise (fun a b => a.before b) ∧
      ∀ posting ∈ index.postingsOf identity, Occurs index.streams identity posting := by
  constructor
  · intro passes identity
    by_cases listed : identity ∈ index.identities
    · have member : (identity.seen, index.postingsOf identity) ∈ index.lists :=
        List.mem_map.mpr ⟨identity, listed, rfl⟩
      exact ⟨passes.ascending _ member,
        fun posting held => leads_seen_iff.mp (passes.leads _ member posting held)⟩
    · have none_ : index.postingsOf identity = [] :=
        List.eq_nil_iff_forall_not_mem.mpr (fun posting held => listed (mem_identities held))
      simp [none_]
  · intro each
    refine ⟨fun list member => ?_, fun list member => ?_, fun list member posting held => ?_⟩ <;>
      obtain ⟨identity, _, rfl⟩ := List.mem_map.mp member
    · rfl
    · exact (each identity).1
    · exact leads_seen_iff.mpr ((each identity).2 posting held)

/-- Lists that lead to tokens are exact if there are as many postings as tokens. -/
theorem exact_iff (distinct : (Assoc.keys index.postings).Nodup) :
    index.Exact ↔ Validate.Passes index.reader index.lists ∧
      Validate.held index.lists = index.tokenCount := by
  have inside (passes : Validate.Passes index.reader index.lists) :
      ∀ list ∈ index.lists, ∀ posting ∈ list.2, posting ∈ Posting.places index.counts := by
    intro list member posting held
    obtain ⟨own, _, occurs⟩ := leads_iff.mp (passes.leads list member posting held)
    exact mem_places_iff.mpr ⟨own, occurs⟩
  constructor
  · intro exact_
    have passes := passes_lists_iff.mpr
      (fun identity => ⟨(exact_ identity).1, fun posting => ((exact_ identity).2 posting).mp⟩)
    refine ⟨passes, ?_⟩
    rw [tokenCount_eq, passes.held_eq_iff (nodup_lists distinct) (inside passes)]
    intro posting member
    obtain ⟨identity, occurs⟩ := mem_places_iff.mp member
    have held := ((exact_ identity).2 posting).mpr occurs
    exact ⟨_, List.mem_map.mpr ⟨identity, mem_identities held, rfl⟩, held⟩
  · rintro ⟨passes, whole⟩ identity
    obtain ⟨ascending, sound⟩ := passes_lists_iff.mp passes identity
    refine ⟨ascending, fun posting => ⟨sound posting, fun occurs => ?_⟩⟩
    rw [tokenCount_eq, passes.held_eq_iff (nodup_lists distinct) (inside passes)] at whole
    obtain ⟨list, member, held⟩ := whole posting (mem_places_iff.mpr ⟨identity, occurs⟩)
    have own := (passes.leads list member posting held).unique (leads_seen_iff.mpr occurs)
    obtain ⟨other, _, rfl⟩ := List.mem_map.mp member
    exact Identity.seen_injective own ▸ held

/-- Posting lists that are told for the identities of an index are those of its posting map. -/
theorem eq_of_told {listed : List Identity} {lists : List (SeenIdentity × List Posting)}
    (same : lists.map Prod.fst = listed.map Identity.seen)
    (told : ∀ list ∈ lists, index.reader.postingsOf list.1 = .ok list.2) :
    lists = listed.map (fun identity => (identity.seen, index.postingsOf identity)) := by
  induction listed generalizing lists with
  | nil => exact List.map_eq_nil_iff.mp same
  | cons identity rest ih =>
      obtain ⟨⟨seen, postings⟩, lists, rfl, rfl, later⟩ := List.map_eq_cons_iff.mp same
      obtain ⟨here, others⟩ := List.forall_mem_cons.mp told
      have own : index.postingsOf identity = postings := Except.ok.inj here
      rw [ih later others, List.map_cons, own]

/-- A check of an index in memory that tells of nothing. -/
theorem validate_eq_nil_iff : index.reader.validate = .ok [] ↔
    Validate.Passes index.reader index.lists ∧ Validate.held index.lists = index.tokenCount := by
  have tokens : totalTokens index.reader.entries = .ok (.integer index.tokenCount) :=
    Artifact.totalTokens_entries index
  have listed : index.reader.identities =
      .ok (index.identities.map (fun identity => .ok identity.seen)) := rfl
  rw [Reader.validate_eq_nil]
  constructor
  · rintro ⟨_, lists, counted, known, passes, same⟩
    cases tokens.symm.trans counted
    have seen : lists.map Prod.fst = index.identities.map Identity.seen := by
      have wrapped := Except.ok.inj (known.symm.trans listed)
      have injective : Function.Injective (Except.ok (ε := Fault) (α := SeenIdentity)) :=
        fun _ _ => Except.ok.inj
      refine List.map_injective_iff.mpr injective ?_
      rw [List.map_map, List.map_map]
      exact wrapped
    cases eq_of_told seen passes.told
    rw [Cell.agrees_integer, decide_eq_true_eq, Int.natCast_inj] at same
    exact ⟨passes, same.symm⟩
  · rintro ⟨passes, whole⟩
    refine ⟨_, index.lists, tokens, ?_, passes, ?_⟩
    · rw [listed, lists, List.map_map]
      rfl
    · rw [Cell.agrees_integer, whole]
      exact decide_eq_true rfl

theorem window_total {file : Int} (low : 0 ≤ file) (high : file < index.reader.entries.length)
    (start stop : Int) : ∃ tokens, index.reader.window file start stop = .ok tokens := by
  obtain ⟨number, rfl⟩ := Int.eq_ofNat_of_zero_le low
  have inside : number < index.files.length := by simpa [reader, entries] using high
  simp only [reader, at?_natCast, List.getElem?_map, List.getElem?_eq_getElem inside,
    Option.map_some]
  exact ⟨_, rfl⟩

/-- The check of an index in memory never fails. -/
theorem validate_total (index : Index) : ∃ found, index.reader.validate = .ok found := by
  have tokens : totalTokens index.reader.entries = .ok (.integer index.tokenCount) :=
    Artifact.totalTokens_entries index
  have listed : index.reader.identities =
      .ok (index.identities.map (fun identity => .ok identity.seen)) := rfl
  have told : ∀ identity ∈ index.identities.map Identity.seen,
      ∃ postings, index.reader.postingsOf identity = .ok postings := by
    intro identity member
    obtain ⟨own, _, rfl⟩ := List.mem_map.mp member
    exact ⟨index.postingsOf own, rfl⟩
  obtain ⟨⟨found, postings⟩, checked⟩ := Validate.checkLists_total window_total told
  rw [List.map_map] at checked
  rw [Reader.validate, tokens, ok_bind, listed, ok_bind]
  exact ⟨_, congrArg (· >>= _) checked⟩

/-- The check of an index in memory, whatever its posting map holds: it returns, and it tells of
nothing exactly if each identity has the strictly ascending list of all its places. -/
theorem validate_decides (distinct : (Assoc.keys index.postings).Nodup) :
    ∃ found, index.reader.validate = .ok found ∧
      (found = [] ↔ ∀ identity, ∃ places, index.reader.postings identity = .ok places ∧
        places.Pairwise (fun a b => a.before b) ∧
        ∀ posting, posting ∈ places ↔ Occurs (index.files.map IndexedFile.tokens) identity posting) := by
  obtain ⟨found, checked⟩ := index.validate_total
  refine ⟨found, checked, ?_⟩
  have exact_ : (∀ identity, ∃ places, index.reader.postings identity = .ok places ∧
      places.Pairwise (fun a b => a.before b) ∧
      ∀ posting, posting ∈ places ↔ Occurs index.streams identity posting) ↔ index.Exact := by
    refine forall_congr' (fun identity => ⟨?_, fun both => ⟨_, rfl, both⟩⟩)
    rintro ⟨places, told, both⟩
    cases told
    exact both
  change found = [] ↔ _
  rw [exact_iff distinct, ← validate_eq_nil_iff, checked, Except.ok.injEq] at exact_
  exact exact_.symm

end Index

/-- The posting map of two files of one word. -/
def wordPostings : PostingMap := [(⟨.identifier, "x"⟩, [⟨0, 0⟩, ⟨0, 1⟩, ⟨1, 0⟩])]

/-- The check tells of nothing here, so no place of the word is missing. -/
theorem wordPostings_exact : (Assoc.keys wordPostings).Nodup ∧
    (Index.reader ⟨wordFiles, wordPostings⟩).validate = .ok [] ∧
    ∀ identity, ∃ places, (Index.reader ⟨wordFiles, wordPostings⟩).postings identity = .ok places ∧
      places.Pairwise (fun a b => a.before b) ∧
      ∀ posting, posting ∈ places ↔
        Occurs [[wordAt 0, wordAt 2], [wordAt 0]] identity posting := by
  have distinct : (Assoc.keys wordPostings).Nodup := by decide
  have passed : (Index.reader ⟨wordFiles, wordPostings⟩).validate = .ok [] := by cbv
  obtain ⟨found, checked, decides⟩ := @Index.validate_decides ⟨wordFiles, wordPostings⟩ distinct
  cases passed.symm.trans checked
  exact ⟨distinct, passed, decides.mp rfl⟩

end TokenSearch
