import Mathlib.Algebra.Ring.Nat
import TokenSearch.Index.Reader
import TokenSearch.Proofs.Data.Slice

namespace TokenSearch

/-! A reader seen as the token streams of its files, and the index in memory as such a reader. -/

/-- Where an identity stands in the streams; a file is named by its place in the list. -/
def Occurs (streams : List (List Token)) (identity : Identity) (posting : Posting) : Prop :=
  ∃ (file place : Nat) (stream : List Token) (token : Token),
    streams[file]? = some stream ∧ stream[place]? = some token ∧ token.identity = identity ∧
      posting = ⟨file, place⟩

/-- A reader shows the given token streams: it counts their tokens, hands out their ranges, and has
for each identity all its places in ascending order. -/
structure Reader.Presents (reader : Reader) (streams : List (List Token)) : Prop where
  counts : reader.entries.map FileEntry.tokenCount =
    streams.map (fun stream => .integer stream.length)
  window : ∀ (file : Nat) (stream : List Token) (start stop : Int), streams[file]? = some stream →
    0 ≤ start → start ≤ stop → stop ≤ stream.length →
      reader.window file start stop = .ok ((Data.slice stream start stop).map Token.seen)
  postings : ∀ identity, ∃ places, reader.postings identity = .ok places ∧
    places.Pairwise (fun a b => a.before b) ∧
    ∀ posting, posting ∈ places ↔ Occurs streams identity posting

theorem mem_positionsFrom {file : Int} {identity : Identity} {place : Nat} {tokens : List Token}
    {posting : Posting} :
    posting ∈ positionsFrom file identity place tokens ↔
      ∃ (offset : Nat) (token : Token), tokens[offset]? = some token ∧
        token.identity = identity ∧ posting = ⟨file, (place + offset : Nat)⟩ := by
  induction tokens generalizing place with
  | nil => simp [positionsFrom]
  | cons token rest ih =>
      have later : (∃ (offset : Nat) (other : Token), (token :: rest)[offset]? = some other ∧
            other.identity = identity ∧ posting = ⟨file, (place + offset : Nat)⟩) ↔
          (token.identity = identity ∧ posting = ⟨file, place⟩) ∨
            ∃ (offset : Nat) (other : Token), rest[offset]? = some other ∧
              other.identity = identity ∧ posting = ⟨file, (place + 1 + offset : Nat)⟩ := by
        constructor
        · rintro ⟨offset, other, found, same, rfl⟩
          cases offset with
          | zero =>
              cases found
              exact .inl ⟨same, rfl⟩
          | succ offset => exact .inr ⟨offset, other, found, same, by congr 2; omega⟩
        · rintro (⟨same, rfl⟩ | ⟨offset, other, found, same, rfl⟩)
          · exact ⟨0, token, rfl, same, rfl⟩
          · exact ⟨offset + 1, other, found, same, by congr 2; omega⟩
      rw [later, ← ih, positionsFrom]
      split
      · rename_i same
        simp [same]
      · rename_i differs
        simp [differs]

theorem positionsFrom_ordered (file : Int) (identity : Identity) (place : Nat)
    (tokens : List Token) :
    (positionsFrom file identity place tokens).Pairwise (fun a b => a.before b) := by
  fun_induction positionsFrom file identity place tokens with
  | case1 => exact .nil
  | case2 place token rest same ih =>
      refine .cons (fun posting member => ?_) ih
      obtain ⟨offset, _, _, _, rfl⟩ := mem_positionsFrom.mp member
      have less : (place : Int) < (place + 1 + offset : Nat) := by omega
      simp only [Posting.before, less, decide_true, Bool.and_self, Bool.or_true]
  | case3 place token rest differs ih => exact ih

namespace Data.Assoc

variable {κ α : Type} [DecidableEq κ]

theorem get?_map_of_keys (keys : List κ) (value : κ → α) (key : κ) :
    get? (keys.map (fun key => (key, value key))) key =
      if key ∈ keys then some (value key) else none := by
  induction keys with
  | nil => rfl
  | cons first rest ih =>
      by_cases same : first = key
      · simp [get?, same]
      · have other : ¬ key = first := fun equal => same equal.symm
        simp [get?, same, other, ih]

end Data.Assoc

theorem length_distinctFrom_le {α : Type} [DecidableEq α] (seen members : List α) :
    (distinctFrom seen members).length ≤ members.length := by
  induction members generalizing seen with
  | nil => exact Nat.le_refl _
  | cons a rest ih =>
      rw [distinctFrom]
      split
      · exact Nat.le_succ_of_le (ih seen)
      · exact Nat.succ_le_succ (ih (a :: seen))

theorem mem_distinctFrom {α : Type} [DecidableEq α] {seen members : List α} {a : α} :
    a ∈ distinctFrom seen members ↔ a ∈ members ∧ a ∉ seen := by
  fun_induction distinctFrom seen members with
  | case1 => simp
  | case2 seen first rest known ih =>
      rw [ih, List.mem_cons]
      constructor
      · exact fun ⟨later, fresh⟩ => ⟨.inr later, fresh⟩
      · rintro ⟨rfl | later, fresh⟩
        · contradiction
        · exact ⟨later, fresh⟩
  | case3 seen first rest unknown ih =>
      rw [List.mem_cons, ih, List.mem_cons, List.mem_cons]
      constructor
      · rintro (rfl | ⟨later, fresh⟩)
        · exact ⟨.inl rfl, unknown⟩
        · exact ⟨.inr later, fun known => fresh (.inr known)⟩
      · rintro ⟨rfl | later, fresh⟩
        · exact .inl rfl
        · by_cases same : a = first
          · exact .inl same
          · exact .inr ⟨later, fun known => known.elim same fresh⟩

theorem nodup_distinctFrom {α : Type} [DecidableEq α] (seen members : List α) :
    (distinctFrom seen members).Nodup := by
  fun_induction distinctFrom seen members with
  | case1 => exact .nil
  | case2 seen first rest known ih => exact ih
  | case3 seen first rest unknown ih =>
      rw [List.nodup_cons, mem_distinctFrom]
      exact ⟨fun both => both.2 List.mem_cons_self, ih⟩

namespace Index

/-- The token streams of the files. -/
def streams (index : Index) : List (List Token) := index.files.map IndexedFile.tokens

/-- How many tokens each file holds. -/
def counts (index : Index) : List Nat := index.streams.map List.length

theorem tokenCount_eq (index : Index) : index.tokenCount = index.counts.sum := by
  rw [tokenCount, counts, streams, List.map_map]
  induction index.files with
  | nil => rfl
  | cons file rest ih => rw [List.foldr_cons, ih, List.map_cons, List.sum_cons, Function.comp_apply]

/-- In the posting lists of some files, an identity has its places in each file, one file after the
other. An identity that stands nowhere has none. -/
theorem postingsOf_ofFiles (files : List IndexedFile) (identity : Identity) :
    postingsOf ⟨files, PostingMap.ofFiles files⟩ identity =
      files.flatMap (fun file => file.positions identity) := by
  rw [postingsOf, Data.Assoc.listOf, PostingMap.ofFiles, Data.Assoc.get?_map_of_keys]
  split
  · rfl
  · rename_i absent
    rw [mem_distinctFrom, List.mem_flatMap] at absent
    symm
    rw [Option.getD_none, List.flatMap_eq_nil_iff]
    intro file member
    refine List.eq_nil_iff_forall_not_mem.mpr (fun posting inside => ?_)
    obtain ⟨offset, token, found, same, _⟩ := mem_positionsFrom.mp inside
    refine absent ⟨⟨file, member, ?_⟩, by simp⟩
    exact List.mem_map.mpr ⟨token, List.mem_of_getElem? found, same⟩

/-- The id of a file is its place. -/
def Dense (files : List IndexedFile) : Prop :=
  ∀ (place : Nat) (file : IndexedFile), files[place]? = some file → file.id = place

theorem dense_singleton {file : IndexedFile} (first : file.id = 0) : Dense [file] := by
  intro place held found
  match place with
  | 0 =>
      cases found
      exact first
  | later + 1 => simp at found

theorem Dense.ascending {files : List IndexedFile} (dense : Dense files) :
    files.Pairwise (fun a b => a.id < b.id) := by
  rw [List.pairwise_iff_getElem]
  intro i j iBound jBound less
  rw [dense i files[i] (List.getElem?_eq_getElem iBound),
    dense j files[j] (List.getElem?_eq_getElem jBound)]
  omega

theorem mem_positions {file : IndexedFile} {identity : Identity} {posting : Posting} :
    posting ∈ file.positions identity ↔
      ∃ (place : Nat) (token : Token), file.tokens[place]? = some token ∧
        token.identity = identity ∧ posting = ⟨file.id, place⟩ := by
  rw [IndexedFile.positions, mem_positionsFrom]
  simp only [Nat.zero_add]

/-- An index with the posting lists of its files shows the token streams of its files. -/
theorem presents_ofFiles {files : List IndexedFile} (dense : Dense files) :
    (reader ⟨files, PostingMap.ofFiles files⟩).Presents (files.map IndexedFile.tokens) where
  counts := by
    simp [reader, entries, IndexedFile.entry]
  window := by
    intro file stream start stop held nonneg forward inside
    obtain ⟨entry, found, rfl⟩ := Option.map_eq_some_iff.mp (List.getElem?_map ▸ held)
    simp [reader, Data.at?_natCast, found, Data.sliceRow_toArray]
  postings := by
    intro identity
    refine ⟨files.flatMap (fun file => file.positions identity), ?_, ?_, ?_⟩
    · exact congrArg Except.ok (postingsOf_ofFiles files identity)
    · rw [List.pairwise_flatMap]
      refine ⟨fun file _ => positionsFrom_ordered file.id identity 0 file.tokens, ?_⟩
      refine dense.ascending.imp (fun {a b} less first member second later => ?_)
      obtain ⟨_, _, _, _, rfl⟩ := mem_positions.mp member
      obtain ⟨_, _, _, _, rfl⟩ := mem_positions.mp later
      simp [Posting.before, less]
    · intro posting
      rw [List.mem_flatMap]
      constructor
      · rintro ⟨file, member, inside⟩
        obtain ⟨number, found⟩ := List.getElem?_of_mem member
        obtain ⟨place, token, held, same, rfl⟩ := mem_positions.mp inside
        refine ⟨number, place, file.tokens, token, ?_, held, same, ?_⟩
        · rw [List.getElem?_map, found]
          rfl
        · rw [dense number file found]
      · rintro ⟨number, place, stream, token, held, found, same, rfl⟩
        obtain ⟨file, known, rfl⟩ := Option.map_eq_some_iff.mp (List.getElem?_map ▸ held)
        refine ⟨file, List.mem_of_getElem? known, mem_positions.mpr ⟨place, token, found, same, ?_⟩⟩
        rw [dense number file known]

end Index

end TokenSearch
