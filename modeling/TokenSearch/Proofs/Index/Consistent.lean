import TokenSearch.Proofs.Index.Decided

namespace TokenSearch

/-! An index with the posting lists of its files passes the check. -/

open Data

namespace Index

theorem nodup_keys_ofFiles (files : List IndexedFile) :
    (Assoc.keys (PostingMap.ofFiles files)).Nodup := by
  have keys : Assoc.keys (PostingMap.ofFiles files) =
      distinctFrom [] (files.flatMap (fun file => file.tokens.map Token.identity)) := by
    rw [Assoc.keys, PostingMap.ofFiles, List.map_map]
    exact List.map_id _
  rw [keys]
  exact nodup_distinctFrom [] _

theorem exact_ofFiles {files : List IndexedFile} (dense : Dense files) :
    Exact ⟨files, PostingMap.ofFiles files⟩ := by
  intro identity
  obtain ⟨places, told, ascending, member⟩ := (presents_ofFiles dense).postings identity
  cases Except.ok.inj told
  exact ⟨ascending, member⟩

theorem validate_ofFiles {files : List IndexedFile} (dense : Dense files) :
    (reader ⟨files, PostingMap.ofFiles files⟩).validate = .ok [] :=
  validate_eq_nil_iff.mpr ((exact_iff (nodup_keys_ofFiles files)).mp (exact_ofFiles dense))

end Index

end TokenSearch
