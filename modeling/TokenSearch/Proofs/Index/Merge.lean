import TokenSearch.Proofs.Data.Assoc
import TokenSearch.Proofs.Index.Streams

/-! Partitions of single files that are merged give the posting lists of all files. -/

namespace TokenSearch

open Data

section Distinct

variable {α β : Type} [DecidableEq α] {seen inner : List α}

theorem distinctFrom_congr {other : List α} (same : ∀ a, a ∈ seen ↔ a ∈ other) (members : List α) :
    distinctFrom seen members = distinctFrom other members := by
  induction members generalizing seen other with
  | nil => rfl
  | cons first rest ih =>
      have longer : distinctFrom (first :: seen) rest = distinctFrom (first :: other) rest :=
        ih (by simp [same])
      rw [distinctFrom, distinctFrom, longer, ih same]
      simp only [same]

theorem distinctFrom_append (seen first second : List α) :
    distinctFrom seen (first ++ second) =
      distinctFrom seen first ++ distinctFrom (seen ++ first) second := by
  induction first generalizing seen with
  | nil => simp [distinctFrom]
  | cons a rest ih =>
      rw [List.cons_append, distinctFrom, distinctFrom]
      split
      · rename_i known
        have same : ∀ b, b ∈ seen ++ rest ↔ b ∈ seen ++ a :: rest := by grind
        rw [ih, distinctFrom_congr same]
      · have same : ∀ b, b ∈ a :: seen ++ rest ↔ b ∈ seen ++ a :: rest := by grind
        rw [ih, distinctFrom_congr same, List.cons_append]

/-- What is left out on the inside would have been left out anyway. -/
theorem distinctFrom_distinctFrom (within : inner ⊆ seen) (members : List α) :
    distinctFrom seen (distinctFrom inner members) = distinctFrom seen members := by
  induction members generalizing seen inner with
  | nil => rfl
  | cons first rest ih =>
      rw [distinctFrom]
      split
      · rename_i known
        rw [ih within, distinctFrom, if_pos (within known)]
      · rw [distinctFrom, distinctFrom]
        split
        · rename_i known
          exact ih (List.cons_subset.mpr ⟨known, within⟩)
        · rw [ih (List.cons_subset_cons first within)]

theorem distinctFrom_flatMap (seen : List α) (lists : List β) (members : β → List α) :
    distinctFrom seen (lists.flatMap (fun b => distinctFrom [] (members b))) =
      distinctFrom seen (lists.flatMap members) := by
  induction lists generalizing seen with
  | nil => rfl
  | cons first rest ih =>
      have same : ∀ a, a ∈ seen ++ distinctFrom [] (members first) ↔ a ∈ seen ++ members first := by
        simp [mem_distinctFrom]
      rw [List.flatMap_cons, List.flatMap_cons, distinctFrom_append, distinctFrom_append,
        distinctFrom_distinctFrom (List.nil_subset seen), ih, distinctFrom_congr same]

end Distinct

namespace Data.Assoc

variable {κ α : Type} [DecidableEq κ] {map : Assoc κ (List α)}

theorem listOf_extend (map : Assoc κ (List α)) (key other : κ) (more : List α) :
    listOf (extend map key more) other =
      listOf map other ++ if key = other then more else [] := by
  by_cases same : key = other <;> simp [listOf, extend, same]

theorem keys_put {β : Type} (map : Assoc κ β) (key : κ) (value : β) :
    keys (put map key value) = if key ∈ keys map then keys map else keys map ++ [key] := by
  induction map with
  | nil => rfl
  | cons pair rest ih =>
      obtain ⟨k, old⟩ := pair
      by_cases same : k = key
      · simp [put, keys, same]
      · have other : ¬ key = k := fun equal => same equal.symm
        have later : keys ((k, old) :: put rest key value) = k :: keys (put rest key value) := rfl
        have whole : keys ((k, old) :: rest) = k :: keys rest := rfl
        rw [put, if_neg same, later, ih, whole]
        by_cases known : key ∈ keys rest <;> simp [known, other]

/-- Members that are collected one pair after the other. -/
theorem listOf_foldl_extend (pairs : List (κ × List α)) (map : Assoc κ (List α)) (key : κ) :
    listOf (pairs.foldl (fun map pair => extend map pair.1 pair.2) map) key =
      listOf map key ++ pairs.flatMap (fun pair => if pair.1 = key then pair.2 else []) := by
  induction pairs generalizing map with
  | nil => simp
  | cons pair rest ih => rw [List.foldl_cons, ih, listOf_extend, List.flatMap_cons, List.append_assoc]

theorem keys_foldl_extend (pairs : List (κ × List α)) (map : Assoc κ (List α)) :
    keys (pairs.foldl (fun map pair => extend map pair.1 pair.2) map) =
      keys map ++ distinctFrom (keys map) (pairs.map Prod.fst) := by
  induction pairs generalizing map with
  | nil => simp [distinctFrom]
  | cons pair rest ih =>
      rw [List.foldl_cons, ih, extend, keys_put, List.map_cons, distinctFrom]
      split
      · rfl
      · have same : ∀ key, key ∈ keys map ++ [pair.1] ↔ key ∈ pair.1 :: keys map := by
          simp [or_comm]
        rw [List.append_assoc, List.singleton_append, distinctFrom_congr same]

theorem listOf_gather (pairs : List (κ × List α)) (key : κ) :
    listOf (gather pairs) key = pairs.flatMap (fun pair => if pair.1 = key then pair.2 else []) :=
  listOf_foldl_extend pairs [] key

theorem keys_gather (pairs : List (κ × List α)) :
    keys (gather pairs) = distinctFrom [] (pairs.map Prod.fst) :=
  keys_foldl_extend pairs []

theorem nodup_keys_gather (pairs : List (κ × List α)) : (keys (gather pairs)).Nodup := by
  rw [keys_gather]
  exact nodup_distinctFrom [] _

/-- A map in which no key stands twice is made of its keys and their lists. -/
theorem eq_map_keys (distinct : (keys map).Nodup) :
    map = (keys map).map (fun key => (key, listOf map key)) := by
  induction map with
  | nil => rfl
  | cons pair rest ih =>
      obtain ⟨key, value⟩ := pair
      obtain ⟨fresh, later⟩ := List.nodup_cons.mp distinct
      have elsewhere : ∀ other ∈ keys rest, (other, listOf ((key, value) :: rest) other) =
          (other, listOf rest other) := by
        intro other known
        have differs : key ≠ other := fun same => fresh (same ▸ known)
        rw [listOf, get?, if_neg differs, ← listOf]
      rw [keys, List.map_cons, List.map_cons, ← keys, List.map_congr_left elsewhere, ← ih later]
      simp [listOf, get?]

/-- Of the pairs of a map, those with one key hold its list. -/
theorem flatMap_eq_listOf {β : Type} (distinct : (keys map).Nodup) (change : List α → List β)
    (empty : change [] = []) (key : κ) :
    map.flatMap (fun pair => if pair.1 = key then change pair.2 else []) =
      change (listOf map key) := by
  induction map with
  | nil => exact empty.symm
  | cons pair rest ih =>
      obtain ⟨k, value⟩ := pair
      obtain ⟨fresh, later⟩ := List.nodup_cons.mp distinct
      rw [List.flatMap_cons, ih later]
      by_cases same : k = key
      · subst same
        simp [listOf, get?, get?_eq_none fresh, empty]
      · simp [listOf, get?, same]

end Data.Assoc

open Assoc

/-- The places that a partition holds for an identity, as places in a file. -/
theorem listOf_partition (tokens : List Token) (identity : Identity) (file : Int) :
    (listOf (Partition.ofTokens tokens) identity).map (fun (place : Nat) => Posting.mk file place) =
      positionsFrom file identity 0 tokens := by
  have counted (start : Nat) : (tokens.zipIdx start).flatMap (fun (pair : Token × Nat) =>
      if pair.1.identity = identity then [Posting.mk file pair.2] else []) =
        positionsFrom file identity start tokens := by
    induction tokens generalizing start with
    | nil => rfl
    | cons token rest ih =>
        rw [List.zipIdx_cons, List.flatMap_cons, ih, positionsFrom]
        by_cases same : token.identity = identity <;> simp [same]
  rw [Partition.ofTokens, listOf_gather, List.flatMap_map, List.map_flatMap, ← counted 0]
  congr 1
  funext pair
  by_cases same : pair.1.identity = identity <;> simp [same]

theorem keys_partition (tokens : List Token) :
    keys (Partition.ofTokens tokens) = distinctFrom [] (tokens.map Token.identity) := by
  have named : (tokens.zipIdx.map (fun pair => (pair.1.identity, [pair.2]))).map Prod.fst =
      (tokens.zipIdx.map Prod.fst).map Token.identity := by
    rw [List.map_map, List.map_map]
    rfl
  rw [List.zipIdx_map_fst] at named
  rw [Partition.ofTokens, keys_gather]
  exact congrArg (distinctFrom []) named

theorem listOf_postings {partition : Partition} (distinct : (keys partition).Nodup) (file : Nat)
    (identity : Identity) : (partition.postings file).flatMap (fun pair =>
      if pair.1 = identity then pair.2 else []) =
        (listOf partition identity).map (fun (place : Nat) => Posting.mk file place) := by
  rw [← flatMap_eq_listOf distinct (List.map (fun (place : Nat) => Posting.mk file place)) rfl,
    Partition.postings, List.flatMap_map]

theorem keys_postings (partition : Partition) (file : Nat) :
    (partition.postings file).map Prod.fst = keys partition := by
  rw [Partition.postings, List.map_map]
  rfl

namespace Index

variable {files : List IndexedFile}

/-- The lists of the partitions of files, before they are merged. -/
def partitioned (start : Nat) (files : List IndexedFile) : List (Identity × List Posting) :=
  ((files.map (fun file => Partition.ofTokens file.tokens)).zipIdx start).flatMap
    (fun (partition, file) => partition.postings file)

theorem partitioned_cons (start : Nat) (file : IndexedFile) (rest : List IndexedFile) :
    partitioned start (file :: rest) =
      (Partition.ofTokens file.tokens).postings start ++ partitioned (start + 1) rest := rfl

theorem keys_partitioned (start : Nat) (files : List IndexedFile) :
    (partitioned start files).map Prod.fst =
      files.flatMap (fun file => distinctFrom [] (file.tokens.map Token.identity)) := by
  induction files generalizing start with
  | nil => rfl
  | cons file rest ih =>
      rw [partitioned_cons, List.map_append, ih, keys_postings, keys_partition, List.flatMap_cons]

theorem lists_partitioned {start : Nat}
    (numbered : ∀ (place : Nat) (file : IndexedFile), files[place]? = some file →
      file.id = (start + place : Nat)) (identity : Identity) :
    (partitioned start files).flatMap (fun pair => if pair.1 = identity then pair.2 else []) =
      files.flatMap (fun file => file.positions identity) := by
  induction files generalizing start with
  | nil => rfl
  | cons file rest ih =>
      have later : ∀ (place : Nat) (other : IndexedFile), rest[place]? = some other →
          other.id = (start + 1 + place : Nat) := by
        intro place other held
        rw [numbered (place + 1) other held]
        congr 1
        omega
      have first : file.id = (start : Nat) := numbered 0 file rfl
      have distinct : (keys (Partition.ofTokens file.tokens)).Nodup := nodup_keys_gather _
      rw [partitioned_cons, List.flatMap_append, ih later, listOf_postings distinct,
        listOf_partition, List.flatMap_cons, IndexedFile.positions, first]

theorem sorted_positions (dense : Dense files) (identity : Identity) :
    (files.flatMap (fun file => file.positions identity)).mergeSort
      (fun a b => !Posting.before b a) = files.flatMap (fun file => file.positions identity) := by
  obtain ⟨places, told, ascending, _⟩ := (presents_ofFiles dense).postings identity
  have same : files.flatMap (fun file => file.positions identity) = places :=
    (postingsOf_ofFiles files identity).symm.trans (Except.ok.inj told)
  rw [same]
  apply List.mergeSort_of_pairwise
  refine ascending.imp (fun {a b} before => ?_)
  simp only [Posting.before] at before ⊢
  grind

/-- Merged partitions are the posting lists of the files. -/
theorem merge_eq_ofFiles (dense : Dense files) :
    PostingMap.merge (files.map (fun file => Partition.ofTokens file.tokens)) =
      PostingMap.ofFiles files := by
  have lists (identity : Identity) : listOf (gather (partitioned 0 files)) identity =
      files.flatMap (fun file => file.positions identity) := by
    rw [listOf_gather]
    exact lists_partitioned (fun place file held => by rw [dense place file held, Nat.zero_add]) _
  change (gather (partitioned 0 files)).map (fun pair =>
    (pair.1, pair.2.mergeSort (fun a b => !Posting.before b a))) = _
  rw [eq_map_keys (nodup_keys_gather (partitioned 0 files)), keys_gather, keys_partitioned,
    distinctFrom_flatMap, PostingMap.ofFiles, List.map_map]
  refine List.map_congr_left (fun identity _ => ?_)
  rw [Function.comp_apply, lists, sorted_positions dense]

end Index

end TokenSearch
