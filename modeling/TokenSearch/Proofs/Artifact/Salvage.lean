import TokenSearch.Artifact.Schema
import TokenSearch.Index.Build
import TokenSearch.Proofs.Artifact.Load

namespace TokenSearch

def Cell.IsNumber : Cell → Prop
  | .integer _ | .real _ => True
  | _ => False

/-- What may be read as a count: words, the bytes of words, or an integer. -/
def Cell.IsCount : Cell → Prop
  | .null | .real _ => False
  | _ => True

namespace Artifact

/-! Reading an artifact that may hold anything. As long as its counts are numbers, opening it and
taking tokens from it fail with the one fault that a build expects. -/

open Data

/-- The counts of the header. -/
def countKeys : List String := ["file_count", "token_count", "posting_keys"]

/-- The result is a value, or the artifact is to blame. -/
def CorruptAtWorst {α : Type} (result : Except Fault α) : Prop :=
  ∀ fault, result = .error fault → ∃ path cause, fault = .indexCorrupt path cause

namespace CorruptAtWorst

variable {α β : Type}

theorem ok (a : α) : CorruptAtWorst (.ok a : Except Fault α) := by
  intro fault failed
  contradiction

theorem error (path : Path) (cause : Corruption) :
    CorruptAtWorst (.error (.indexCorrupt path cause) : Except Fault α) := by
  intro fault failed
  cases failed
  exact ⟨path, cause, rfl⟩

theorem bind {first : Except Fault α} {next : α → Except Fault β} (before : CorruptAtWorst first)
    (after : ∀ a, first = .ok a → CorruptAtWorst (next a)) : CorruptAtWorst (first >>= next) := by
  intro fault failed
  rcases bind_eq_error.mp failed with early | ⟨a, passed, late⟩
  · exact before fault early
  · exact after a passed fault late

theorem mapM {step : α → Except Fault β} (each : ∀ a, CorruptAtWorst (step a)) (xs : List α) :
    CorruptAtWorst (xs.mapM step) := by
  induction xs with
  | nil => exact .ok []
  | cons a rest ih =>
      rw [List.mapM_cons]
      refine (each a).bind (fun b _ => ih.bind (fun others _ => .ok (b :: others)))

theorem table (path : Path) (content : Content) (name : TableName)
    (rows : Tables → Option (List α)) : CorruptAtWorst (content.table path name rows) := by
  unfold Content.table
  split
  · exact .error _ _
  · exact .error _ _
  · split
    · exact .ok _
    · exact .error _ _

theorem loadHeader (path : Path) (content : Content) :
    CorruptAtWorst (Artifact.loadHeader path content) := by
  unfold Artifact.loadHeader
  simp only
  split
  · exact (error _ _).bind (fun header found => by contradiction)
  · refine (table path content .header Tables.header).bind (fun header _ => ?_)
    split
    · split
      · exact .ok _
      · exact .error _ _
    · exact .error _ _

theorem entriesFrom (path : Path) (next : Nat) (rows : List FileRow) :
    CorruptAtWorst (Artifact.entriesFrom path next rows) := by
  induction rows generalizing next with
  | nil => exact .ok []
  | cons row rest ih =>
      rw [Artifact.entriesFrom]
      split
      · exact (ih (next + 1)).bind (fun entries _ => .ok _)
      · exact .error _ _

theorem loadEntries (path : Path) (content : Content) :
    CorruptAtWorst (Artifact.loadEntries path content) :=
  (table path content .files Tables.files).bind (fun _ _ => entriesFrom path 0 _)

theorem headerCount {path : Path} {header : List HeaderRow} {key : String} {value : Cell}
    (listed : headerValue? header key = some value) (counts : value.IsCount) :
    CorruptAtWorst (Artifact.headerCount path header key) := by
  rw [Artifact.headerCount, listed, Option.getD_some]
  cases value with
  | null | real => contradiction
  | integer n => exact .ok n
  | text words =>
      simp only
      split
      · exact .ok _
      · exact .error _ _
  | blob bytes =>
      simp only
      split
      · exact .ok _
      · exact .error _ _

theorem totalTokens {entries : List FileEntry}
    (numbers : ∀ entry ∈ entries, entry.tokenCount.IsNumber) :
    CorruptAtWorst (TokenSearch.totalTokens entries) := by
  have sums {total count : Cell} (first : total.IsNumber) (second : count.IsNumber) :
      ∃ sum, total.add? count = some sum ∧ sum.IsNumber := by
    cases total <;> cases count <;> simp_all [Cell.IsNumber, Cell.add?, Cell.ofFloat]
  have start : (Cell.integer 0).IsNumber := trivial
  unfold TokenSearch.totalTokens
  generalize Cell.integer 0 = total at start
  induction entries generalizing total with
  | nil => exact .ok total
  | cons entry rest ih =>
      obtain ⟨sum, added, number⟩ := sums start (numbers entry List.mem_cons_self)
      rw [List.foldlM_cons, added, ok_bind]
      exact ih (fun other member => numbers other (List.mem_cons_of_mem _ member)) sum number

theorem checkHeader {path : Path} {content : Content} {header : List HeaderRow}
    {entries : List FileEntry}
    (counts : ∀ key ∈ countKeys, ∃ value, headerValue? header key = some value ∧ value.IsCount)
    (numbers : ∀ entry ∈ entries, entry.tokenCount.IsNumber) :
    CorruptAtWorst (Artifact.checkHeader path content header entries) := by
  have count {key : String} (listed : key ∈ countKeys) :
      CorruptAtWorst (Artifact.headerCount path header key) := by
    obtain ⟨value, found, counted⟩ := counts key listed
    exact headerCount found counted
  unfold Artifact.checkHeader
  refine (count (by decide)).bind (fun fileCount _ => ?_)
  refine (count (by decide)).bind (fun tokenCount _ => ?_)
  refine (count (by decide)).bind (fun postingKeys _ => ?_)
  split
  · exact .error _ _
  · refine (totalTokens numbers).bind (fun total _ => ?_)
    split
    · exact .error _ _
    · refine (table path content .postings Tables.postings).bind (fun rows _ => ?_)
      split
      · exact .error _ _
      · exact .ok _

end CorruptAtWorst

/-- Tables whose counts can be read: the header gives a value for each of them, and each file has a
number of tokens. The integers of the file table are such as a column holds. -/
structure Measured (tables : Tables) : Prop where
  header : ∀ rows, tables.header = some rows → ∀ row ∈ rows, ∀ key ∈ countKeys,
    row.key = .text key → row.value.IsCount
  files : ∀ rows, tables.files = some rows → ∀ row ∈ rows, row.tokenCount.IsNumber
  integers : ∀ rows, tables.files = some rows → ∀ row ∈ rows, ∀ n,
    Cell.integer n ∈ Row.cells row → Cell.fitsColumn n = true

def Content.Measured (content : Content) : Prop :=
  ∀ tables, content = .tables tables → Artifact.Measured tables

theorem measured_tablesOf {index : Index}
    (fits : ∀ file ∈ index.files, ∀ n ∈ fileNumbers file, Cell.fitsColumn n = true)
    (rows : List SkippedRow) (kept created : String) :
    Measured (tablesOf index rows kept created) where
  header := by
    intro held found row member key _ _
    cases found
    obtain ⟨_, _, rfl⟩ := List.mem_map.mp member
    trivial
  files := by
    intro held found row member
    cases found
    obtain ⟨file, _, rfl⟩ := List.mem_map.mp member
    trivial
  integers := by
    intro held found row member n inside
    cases found
    obtain ⟨file, known, rfl⟩ := List.mem_map.mp member
    apply fits file known
    cases modified : file.fingerprint.modified <;>
      simp_all [Row.cells, fileRow, fileNumbers, Cell.ofInteger?]

theorem rows_of_table {α : Type} {path : Path} {content : Content} {name : TableName}
    {rows : Tables → Option (List α)} {found : List α}
    (read : content.table path name rows = .ok found) :
    ∃ tables, content = .tables tables ∧ rows tables = some found := by
  unfold Content.table at read
  split at read
  · contradiction
  · contradiction
  · rename_i held
    split at read
    · rename_i rows' same
      cases read
      exact ⟨held, rfl, same⟩
    · contradiction

theorem mem_entriesFrom {path : Path} {next : Nat} {rows : List FileRow}
    {entries : List FileEntry} (listed : entriesFrom path next rows = .ok entries)
    {entry : FileEntry} (member : entry ∈ entries) : ∃ row ∈ rows, row.entry = entry := by
  induction rows generalizing next entries with
  | nil =>
      cases listed
      contradiction
  | cons row rest ih =>
      rw [entriesFrom] at listed
      split at listed
      · obtain ⟨others, later, listed⟩ := bind_eq_ok.mp listed
        cases listed
        rcases List.mem_cons.mp member with rfl | inside
        · exact ⟨row, List.mem_cons_self, rfl⟩
        · obtain ⟨other, known, same⟩ := ih later inside
          exact ⟨other, List.mem_cons_of_mem _ known, same⟩
      · contradiction

theorem row_of_loadEntries {path : Path} {content : Content} {entries : List FileEntry}
    (loaded : loadEntries path content = .ok entries) {entry : FileEntry} (member : entry ∈ entries) :
    ∃ tables rows, content = .tables tables ∧ tables.files = some rows ∧
      ∃ row ∈ rows, row.entry = entry := by
  obtain ⟨rows, read, loaded⟩ := bind_eq_ok.mp loaded
  obtain ⟨tables, held, found⟩ := rows_of_table read
  obtain ⟨row, inside, same⟩ := mem_entriesFrom loaded member
  exact ⟨tables, rows, held, found, row, List.mem_mergeSort.mp inside, same⟩

theorem header_of_loadHeader {path : Path} {content : Content} {header : List HeaderRow}
    (loaded : loadHeader path content = .ok header) :
    (∃ tables, content = .tables tables ∧ tables.header = some header) ∧
      ∀ key ∈ requiredKeys, ∃ value, headerValue? header key = some value := by
  unfold loadHeader at loaded
  simp only at loaded
  split at loaded
  · contradiction
  · obtain ⟨rows, read, loaded⟩ := bind_eq_ok.mp loaded
    split at loaded
    · rename_i complete
      split at loaded
      · cases loaded
        refine ⟨rows_of_table read, ?_⟩
        intro key required
        rw [List.isEmpty_iff, List.filter_eq_nil_iff] at complete
        exact Option.ne_none_iff_exists'.mp (by simpa using complete key required)
      · contradiction
    · contradiction

theorem row_of_headerValue? {header : List HeaderRow} {key : String} {value : Cell}
    (found : headerValue? header key = some value) :
    ∃ row ∈ header, row.key = .text key ∧ row.value = value := by
  obtain ⟨row, chosen, same⟩ := Option.map_eq_some_iff.mp found
  refine ⟨row, List.mem_reverse.mp (List.mem_of_find?_eq_some chosen), ?_, same⟩
  have named := List.find?_some chosen
  simpa using named

/-- Opening measured tables fails only because they are corrupt. -/
theorem CorruptAtWorst.load {content : Content} (measured : content.Measured) (path : Path) :
    CorruptAtWorst (Stored.load path content) := by
  unfold Stored.load
  refine (loadHeader path content).bind (fun header headed => ?_)
  refine (loadEntries path content).bind (fun entries listed => ?_)
  refine CorruptAtWorst.bind ?_ (fun _ _ => .ok _)
  obtain ⟨⟨tables, held, found⟩, complete⟩ := header_of_loadHeader headed
  apply checkHeader
  · intro key counted
    have required : ∀ key ∈ countKeys, key ∈ requiredKeys := by decide
    obtain ⟨value, known⟩ := complete key (required key counted)
    obtain ⟨row, inside, named, rfl⟩ := row_of_headerValue? known
    exact ⟨row.value, known, (measured tables held).header header found row inside key counted named⟩
  · intro entry member
    obtain ⟨tables, rows, held, found, row, inside, rfl⟩ := row_of_loadEntries listed member
    exact (measured tables held).files rows found row inside

/-- The number of tokens of a file is asked for as a column would hold it. -/
theorem fits_ceiling {cell : Cell}
    (fits : ∀ n, cell = .integer n → Cell.fitsColumn n = true) :
    Cell.fitsColumn cell.ceiling = true := by
  cases cell with
  | integer n => exact fits n rfl
  | null | text | blob => rfl
  | real bits =>
      rw [Cell.ceiling]
      split
      · simp only [Cell.fitsColumn, Bool.and_eq_true, decide_eq_true_eq]
        omega
      · decide

theorem CorruptAtWorst.window (stored : Stored) (content : Content) {file start stop : Int}
    (known : Cell.fitsColumn file = true) (begins : Cell.fitsColumn (max start 0) = true)
    (few : Cell.fitsColumn stop = true) :
    CorruptAtWorst ((stored.reader (.ok content)).window file start stop) := by
  have token (row : TokenRow) : CorruptAtWorst (stored.token row) := by
    refine CorruptAtWorst.bind ?_ (fun kind _ => .ok _)
    unfold Stored.kind
    split
    · exact .ok _
    · exact .error _ _
  have checked : checkColumns [file, max start 0, stop] = .ok () := by
    rw [checkColumns_eq_ok]
    simp [known, begins, few]
  have shelf : CorruptAtWorst ((Except.ok content : Except Fault Content).bind stored.shelf) :=
    (table stored.path content .tokens Tables.tokens).bind (fun rows _ => .ok _)
  refine shelf.bind (fun shelf _ => ?_)
  rw [Stored.window, checked, ok_bind]
  exact mapM token _

theorem entries_eq_of_load {path : Path} {content : Content} {stored : Stored}
    (opened : Stored.load path content = .ok stored) :
    loadEntries path content = .ok stored.entries := by
  obtain ⟨_, _, opened⟩ := bind_eq_ok.mp opened
  obtain ⟨_, found, opened⟩ := bind_eq_ok.mp opened
  obtain ⟨_, _, opened⟩ := bind_eq_ok.mp opened
  cases opened
  exact found

/-- A build can always ask measured tables for tokens. -/
theorem reuse_of_measured {content : Content} (measured : content.Measured) {path : Path}
    {stored : Stored} (opened : Stored.load path content = .ok stored) (name : String)
    (fingerprint : Fingerprint) :
    ∃ kind, Build.reuse (some (stored.reader (.ok content))) name fingerprint = .ok kind := by
  simp only [Build.reuse]
  split
  · exact ⟨_, rfl⟩
  · rename_i entry listed
    split
    · have window : CorruptAtWorst
          ((stored.reader (.ok content)).window entry.id 0 entry.tokenCount.ceiling) := by
        have member : entry ∈ stored.entries :=
          List.mem_reverse.mp (List.mem_of_find?_eq_some listed)
        obtain ⟨tables, rows, held, found, row, inside, rfl⟩ :=
          row_of_loadEntries (entries_eq_of_load opened) member
        have integers := (measured tables held).integers rows found row inside
        apply CorruptAtWorst.window
        · exact integers row.id (by simp [Row.cells])
        · decide
        · apply fits_ceiling
          intro n same
          exact integers n (by simp [Row.cells, ← same, FileRow.entry])
      split
      · split
        · split <;> exact ⟨_, rfl⟩
        · exact ⟨_, rfl⟩
      · exact ⟨_, rfl⟩
      · exact ⟨_, rfl⟩
      · rename_i fault notCorrupt _ failed
        obtain ⟨_, _, rfl⟩ := window fault failed
        exact (notCorrupt _ _ rfl).elim
    · exact ⟨_, rfl⟩

end Artifact

end TokenSearch
