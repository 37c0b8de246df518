import TokenSearch.Proofs.Index.Rebuild
import TokenSearch.Proofs.Service.View

namespace TokenSearch.Service

/-! What the comparison of an audit tells: how the files that were indexed and those on disk differ. -/

open Data Artifact

/-- How indexed files and files on disk differ. Files that were skipped count as known. -/
structure Comparison.Exact (comparison : Comparison) (differs : IndexedFile → Bytes → Prop)
    (indexed : List IndexedFile) (skipped : List String) (files : List (String × Bytes)) : Prop where
  stale : ∀ path, path ∈ comparison.stale ↔
    ∃ file ∈ indexed, file.path = path ∧ ∃ content, (path, content) ∈ files ∧ differs file content
  missing : ∃ paths : List String, comparison.missing = paths.map .text ∧ paths.Pairwise (· < ·) ∧
    ∀ path, path ∈ paths ↔ path ∈ indexed.map IndexedFile.path ∧ path ∉ files.map Prod.fst
  new : ∀ path, path ∈ comparison.new ↔ path ∈ files.map Prod.fst ∧
    path ∉ indexed.map IndexedFile.path ∧ path ∉ skipped
  staleAscending : comparison.stale.Pairwise (· < ·)
  newAscending : comparison.new.Pairwise (· < ·)

/-- A content has another fingerprint than the one that is stored for a file. -/
def ShowsChange (file : IndexedFile) (content : Bytes) : Prop :=
  file.entry.isEquivalent (.ofContent content none) = false

section Compare

variable {indexed : List IndexedFile} {rows : List SkippedRow} {skipped : List String}
  {files : List (String × Bytes)}

theorem ascending_filter {wanted : String × Fingerprint → Bool}
    (ascending : (files.map Prod.fst).Pairwise (· < ·)) :
    (((files.map printOf).filter wanted).map Prod.fst).Pairwise (· < ·) := by
  have names : (files.map printOf).map Prod.fst = files.map Prod.fst := by
    rw [List.map_map]
    rfl
  rw [← names] at ascending
  exact ascending.sublist (List.filter_sublist.map Prod.fst)

theorem mem_filter_printOf {wanted : String × Fingerprint → Bool} {path : String} :
    path ∈ ((files.map printOf).filter wanted).map Prod.fst ↔
      ∃ content, (path, content) ∈ files ∧ wanted (path, .ofContent content none) = true := by
  constructor
  · intro member
    obtain ⟨print, inside, rfl⟩ := List.mem_map.mp member
    obtain ⟨listed, chosen⟩ := List.mem_filter.mp inside
    obtain ⟨file, known, rfl⟩ := List.mem_map.mp listed
    exact ⟨file.2, known, chosen⟩
  · rintro ⟨content, known, chosen⟩
    exact List.mem_map.mpr ⟨(path, .ofContent content none),
      List.mem_filter.mpr ⟨List.mem_map_of_mem known, chosen⟩, rfl⟩

theorem any_entry {path : String} :
    (indexed.map IndexedFile.entry).any (fun entry => entry.path = .text path) = true ↔
      path ∈ indexed.map IndexedFile.path := by
  simp [IndexedFile.entry]

theorem any_printOf {path : String} :
    (files.map printOf).any (fun (other, _) => Cell.text path = .text other) = true ↔
      path ∈ files.map Prod.fst := by
  rw [List.any_map, List.any_eq_true, List.mem_map]
  constructor
  · rintro ⟨file, member, same⟩
    exact ⟨file, member, (Cell.text.inj (of_decide_eq_true same)).symm⟩
  · rintro ⟨file, member, rfl⟩
    exact ⟨file, member, decide_eq_true rfl⟩

theorem mem_stale (distinct : (indexed.map IndexedFile.path).Nodup) (path : String) :
    path ∈ (compare (indexed.map IndexedFile.entry) rows (files.map printOf)).stale ↔
      ∃ file ∈ indexed, file.path = path ∧ ∃ content, (path, content) ∈ files ∧
        ShowsChange file content := by
  rw [compare, mem_filter_printOf]
  simp only [ShowsChange]
  constructor
  · rintro ⟨content, known, chosen⟩
    by_cases listed : path ∈ indexed.map IndexedFile.path
    · obtain ⟨file, member, rfl⟩ := List.mem_map.mp listed
      rw [find?_entry distinct member] at chosen
      exact ⟨file, member, rfl, content, known, by simpa using chosen⟩
    · rw [find?_entry_eq_none listed] at chosen
      contradiction
  · rintro ⟨file, member, rfl, content, known, changed⟩
    refine ⟨content, known, ?_⟩
    rw [find?_entry distinct member]
    simpa using changed

/-- A comparison tells all differences that fingerprints show. -/
theorem compare_exact (ascending : (indexed.map IndexedFile.path).Pairwise (· < ·))
    (named : Named files)
    (left : ∀ path, rows.any (fun row => row.path = .text path) = true ↔ path ∈ skipped) :
    (compare (indexed.map IndexedFile.entry) rows (files.map printOf)).Exact ShowsChange indexed skipped
      files where
  stale := mem_stale (nodup_of_ascending ascending)
  missing := by
    have absent (file : IndexedFile) : (!(files.map printOf).any (fun (path, _) =>
        file.entry.path = .text path)) = true ↔ file.path ∉ files.map Prod.fst := by
      rw [Bool.not_eq_true', Bool.eq_false_iff, ne_eq]
      exact not_congr any_printOf
    refine ⟨(indexed.filter (fun file => !(files.map printOf).any (fun (path, _) =>
      file.entry.path = .text path))).map IndexedFile.path, ?_, ?_, ?_⟩
    · simp only [compare, List.filter_map, List.map_map]
      rfl
    · exact ascending.sublist (List.filter_sublist.map _)
    · intro path
      constructor
      · intro member
        obtain ⟨file, inside, rfl⟩ := List.mem_map.mp member
        obtain ⟨known, gone⟩ := List.mem_filter.mp inside
        exact ⟨List.mem_map_of_mem known, (absent file).mp gone⟩
      · rintro ⟨listed, gone⟩
        obtain ⟨file, known, rfl⟩ := List.mem_map.mp listed
        exact List.mem_map_of_mem (List.mem_filter.mpr ⟨known, (absent file).mpr gone⟩)
  new := by
    intro path
    rw [compare, mem_filter_printOf]
    simp only [Bool.and_eq_true, Bool.not_eq_true', Bool.eq_false_iff, ne_eq, any_entry, left]
    constructor
    · rintro ⟨content, known, unknown⟩
      exact ⟨List.mem_map_of_mem known, unknown⟩
    · rintro ⟨listed, unknown⟩
      obtain ⟨file, known, rfl⟩ := List.mem_map.mp listed
      exact ⟨file.2, known, unknown⟩
  staleAscending := ascending_filter named.ascending
  newAscending := ascending_filter named.ascending

/-- Fingerprints show all differences between contents that have fingerprints of their own. -/
theorem Comparison.Exact.of_apart {comparison : Comparison} {contents : List Bytes}
    (exact_ : comparison.Exact ShowsChange indexed skipped files) (apart : Apart contents)
    (printed : ∀ file ∈ indexed, ∃ modified, file.fingerprint = .ofContent file.source modified)
    (taken : ∀ file ∈ indexed, file.source ∈ contents) (known : ∀ file ∈ files, file.2 ∈ contents) :
    comparison.Exact (fun file content => content ≠ file.source) indexed skipped files where
  stale := by
    intro path
    have shown {file : IndexedFile} (member : file ∈ indexed) {content : Bytes}
        (listed : (path, content) ∈ files) :
        ShowsChange file content ↔ content ≠ file.source := by
      obtain ⟨modified, print⟩ := printed file member
      rw [ShowsChange, Bool.eq_false_iff, ne_eq,
        isEquivalent_entry apart print (taken file member) (known _ listed), eq_comm]
    rw [exact_.stale]
    constructor
    · rintro ⟨file, member, named, content, listed, changed⟩
      exact ⟨file, member, named, content, listed, (shown member listed).mp changed⟩
    · rintro ⟨file, member, named, content, listed, changed⟩
      exact ⟨file, member, named, content, listed, (shown member listed).mpr changed⟩
  missing := exact_.missing
  new := exact_.new
  staleAscending := exact_.staleAscending
  newAscending := exact_.newAscending

end Compare

def AuditReport.comparison (report : AuditReport) : Comparison :=
  ⟨report.stale, report.missing, report.new⟩

namespace AuditReport

theorem needsRebuild_eq_false_iff (report : AuditReport) :
    report.needsRebuild = false ↔ report.problems = [] ∧ report.comparison = ⟨[], [], []⟩ := by
  simp [needsRebuild, comparison, and_assoc]

/-- Problems make an index corrupt, whatever is on disk. -/
theorem status_of_problems {report : AuditReport} (problems : report.problems ≠ []) :
    report.status = "corrupt" := by
  simp [status, problems]

/-- Without problems, an index is stale exactly if there is a difference. -/
theorem status_of_no_problems {report : AuditReport} (sound : report.problems = []) :
    report.status = if report.comparison = ⟨[], [], []⟩ then "ok" else "stale" := by
  have needed := report.needsRebuild_eq_false_iff
  simp only [sound, true_and] at needed
  rw [status, sound]
  by_cases same : report.comparison = ⟨[], [], []⟩
  · simp [needed.mpr same, same]
  · simp [same, mt needed.mp same]

end AuditReport

end TokenSearch.Service
