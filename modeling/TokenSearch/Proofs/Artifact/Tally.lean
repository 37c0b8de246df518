import TokenSearch.Proofs.Artifact.Sound
import TokenSearch.Proofs.Index.Checked

namespace TokenSearch.Artifact

/-! What the check of an opened artifact says of its tables. It compares the number of all postings with
the number of all tokens, and never looks at the tokens of one file. Where no posting goes beyond
the tokens that its file is said to hold, the tables are complete; else they need not be. -/

open Data Validate

/-- Each row has a place in a file, and no other row has it. -/
structure Placed (rows : List TokenRow) : Prop where
  keyed : ∀ row ∈ rows, ∃ key, row.key? = some key
  apart : rows.Pairwise (fun a b => a.key? ≠ b.key?)

/-- No two posting lists are those of one identity. -/
def Apart (lists : List PostingRow) : Prop :=
  lists.Pairwise (fun a b => a.kind = b.kind → a.text ≠ b.text)

/-- The numbers of tokens that an opened artifact tells, file by file. -/
def Stored.Counts (stored : Stored) (counts : List Nat) : Prop :=
  stored.entries.map FileEntry.tokenCount = counts.map (fun count => .integer count)

/-- No posting goes beyond the tokens that its file is said to hold. -/
def Within (reader : Reader) (counts : List Nat) : Prop :=
  ∀ identity postings, reader.postingsOf identity = .ok postings → ∀ posting ∈ postings,
    ∀ (file count : Nat), posting.file = file → counts[file]? = some count → posting.token < count

/-- At a place of a file stands a row with an identity. -/
def Stands (rows : List TokenRow) (identity : SeenIdentity) (file place : Int) : Prop :=
  ∃ row ∈ rows, row.key? = some (file, place) ∧ row.kind = .text identity.kind.name ∧
    row.text = identity.text

/-- All tokens that a file is said to hold are there, and each identity has the ascending list of
their places. -/
structure Complete (reader : Reader) (rows : List TokenRow) (counts : List Nat) : Prop where
  windows : ∀ (file count : Nat), counts[file]? = some count →
    ∃ tokens, reader.window file 0 count = .ok tokens ∧ tokens.length = count
  postings : ∀ identity, ∃ places, reader.postings identity = .ok places ∧
    places.Pairwise (fun a b => a.before b) ∧
    ∀ posting, posting ∈ places ↔ ∃ (file place count : Nat), counts[file]? = some count ∧
      place < count ∧ posting = ⟨file, place⟩ ∧ Stands rows identity.seen file place

section Identity

variable {stored : Stored}

theorem kind_eq_ok {kind : TokenKind} {name : Cell} :
    stored.kind name = .ok kind ↔ name = .text kind.name := by
  unfold Stored.kind
  constructor
  · intro named
    split at named
    · rename_i other known
      cases named
      obtain ⟨text, isText, found⟩ := Option.bind_eq_some_iff.mp known
      have own := List.find?_some found
      cases name with
      | text value =>
          cases isText
          rw [of_decide_eq_true own]
      | null | integer | real | blob => cases isText
    · cases named
  · rintro rfl
    cases kind <;> rfl

theorem identity_eq_ok {row : PostingRow} {identity : SeenIdentity} :
    stored.identity row = .ok identity ↔
      row.kind = .text identity.kind.name ∧ row.text = identity.text := by
  rw [Stored.identity, bind_eq_ok]
  constructor
  · rintro ⟨kind, named, same⟩
    cases same
    exact ⟨kind_eq_ok.mp named, rfl⟩
  · rintro ⟨named, same⟩
    exact ⟨identity.kind, kind_eq_ok.mpr named, by rw [same]; rfl⟩

theorem identity_of_token {row : TokenRow} {token : SeenToken}
    (read : stored.token row = .ok token) :
    row.kind = .text token.identity.kind.name ∧ row.text = token.identity.text := by
  obtain ⟨kind, named, same⟩ := bind_eq_ok.mp read
  cases same
  exact ⟨kind_eq_ok.mp named, rfl⟩

theorem seenIdentity_eq {one other : SeenIdentity} (kind : one.kind.name = other.kind.name)
    (text : one.text = other.text) : one = other := by
  obtain ⟨first, _⟩ := one
  obtain ⟨second, _⟩ := other
  cases text
  cases first <;> cases second <;> first | rfl | simp [TokenKind.name] at kind

end Identity

section Rows

variable {rows : List TokenRow} {file : Int}

theorem Placed.eq_of_key (placed : Placed rows) {row other : TokenRow} {key : Int × Int}
    (first : row ∈ rows) (second : other ∈ rows) (named : row.key? = some key)
    (again : other.key? = some key) : row = other := by
  have found := Shelf.find?_of_apart placed.apart first named
  exact Option.some.inj (found.symm.trans (Shelf.find?_of_apart placed.apart second again))

theorem Stands.unique (placed : Placed rows) {one other : SeenIdentity} {place : Int}
    (first : Stands rows one file place) (second : Stands rows other file place) : one = other := by
  obtain ⟨row, member, named, kind, text⟩ := first
  obtain ⟨_, again, same, otherKind, otherText⟩ := second
  cases placed.eq_of_key member again named same
  exact seenIdentity_eq (Cell.text.inj (kind.symm.trans otherKind)) (text.symm.trans otherText)

/-- A window of places that all have rows has one row for each. -/
theorem Placed.length_windowRows (placed : Placed rows) {count : Nat}
    (full : ∀ place < count, ∃ row ∈ rows, row.key? = some (file, (place : Int))) :
    (windowRows rows file 0 count).length = count := by
  have member {row : TokenRow} : row ∈ windowRows rows file 0 count ↔
      row ∈ rows ∧ ∃ place < count, row.key? = some (file, (place : Int)) := by
    rw [mem_windowRows placed.keyed]
    refine and_congr_right (fun _ => ⟨?_, ?_⟩)
    · rintro ⟨place, named, lower, upper⟩
      obtain ⟨number, rfl⟩ := Int.eq_ofNat_of_zero_le lower
      exact ⟨number, Int.ofNat_lt.mp upper, named⟩
    · rintro ⟨place, inside, named⟩
      exact ⟨place, named, Int.natCast_nonneg _, Int.ofNat_lt.mpr inside⟩
  -- The rows and the places are the same many, as each row has one place and each place one row.
  have kept : (windowRows rows file 0 count).Pairwise (fun a b => a.key? ≠ b.key?) :=
    (List.mergeSort_perm _ _).symm.pairwise (placed.apart.filter _) (fun differ => differ.symm)
  have keys : ((windowRows rows file 0 count).map TokenRow.key?).Nodup := List.pairwise_map.mpr kept
  have places : ((List.range count).map (fun (place : Nat) => some (file, (place : Int)))).Nodup :=
    List.nodup_range.map (fun first second same => by simpa using same)
  have same := (List.perm_ext_iff_of_nodup keys places).mpr (fun key => by
    simp only [List.mem_map, List.mem_range]
    constructor
    · rintro ⟨row, inside, rfl⟩
      obtain ⟨_, place, below, named⟩ := member.mp inside
      exact ⟨place, below, named.symm⟩
    · rintro ⟨place, below, rfl⟩
      obtain ⟨row, known, named⟩ := full place below
      exact ⟨row, member.mpr ⟨known, place, below, named⟩, named⟩)
  simpa using same.length_eq

end Rows

section Reading

variable {stored : Stored} {tables : Tables} {rows : List TokenRow}

/-- A posting that leads to a token names the row that the token is read from. -/
theorem stands_of_leads (held : tables.tokens = some rows) (placed : Placed rows)
    {identity : SeenIdentity} {posting : Posting}
    (leads : Leads (stored.reader (.ok (.tables tables))) identity posting) :
    Stands rows identity posting.file posting.token ∧
      ∀ row ∈ rows, row.key? = some (posting.file, posting.token) →
        ∃ token, stored.token row = .ok token := by
  obtain ⟨_, _, nonneg, token, later, window, rfl⟩ := leads
  obtain ⟨_, same, shown⟩ := rows_of_window window
  cases held.symm.trans same
  obtain ⟨row, inside, read⟩ := (mem_of_mapM shown).mp List.mem_cons_self
  obtain ⟨member, place, named, lower, upper⟩ := (mem_windowRows placed.keyed).mp inside
  have here : place = posting.token := by omega
  subst here
  refine ⟨⟨row, member, named, identity_of_token read⟩, fun other known again => ?_⟩
  rw [placed.eq_of_key known member again named]
  exact ⟨token, read⟩

/-- The posting lists of a stored index, in the order in which they are checked. -/
theorem lists_of_identities {lists : List (SeenIdentity × List Posting)}
    (listed : (stored.reader (.ok (.tables tables))).identities =
      .ok (lists.map (fun list => .ok list.1))) :
    ∃ postings, tables.postings = some postings ∧
      (postings.mergeSort Stored.rowPrecedes).map stored.identity =
        lists.map (fun list => .ok list.1) := by
  have read : stored.identities (.tables tables) = .ok (lists.map (fun list => .ok list.1)) := listed
  obtain ⟨postings, table, same⟩ := bind_eq_ok.mp read
  obtain ⟨_, ⟨⟩, held⟩ := rows_of_table table
  exact ⟨postings, held, Except.ok.inj same⟩

theorem nodup_of_apart {postings : List PostingRow} {lists : List (SeenIdentity × List Posting)}
    (apart : Apart postings)
    (same : (postings.mergeSort Stored.rowPrecedes).map stored.identity =
      lists.map (fun list => .ok list.1)) : (lists.map Prod.fst).Nodup := by
  have sorted : (postings.mergeSort Stored.rowPrecedes).Pairwise
      (fun a b => a.kind = b.kind → a.text ≠ b.text) :=
    (List.mergeSort_perm _ _).symm.pairwise apart
      (fun differ kind text => differ kind.symm text.symm)
  have known : ∀ row ∈ postings.mergeSort Stored.rowPrecedes,
      ∃ identity, stored.identity row = .ok identity := by
    intro row member
    have named : stored.identity row ∈ lists.map (fun list => .ok list.1) :=
      same ▸ List.mem_map_of_mem member
    obtain ⟨list, _, told⟩ := List.mem_map.mp named
    exact ⟨list.1, told.symm⟩
  have unlike : (lists.map (fun list => (.ok list.1 : Except Fault SeenIdentity))).Nodup := by
    rw [← same]
    refine List.pairwise_map.mpr (sorted.imp_of_mem (fun {a b} inA _ differ equal => ?_))
    obtain ⟨identity, told⟩ := known a inA
    obtain ⟨kind, text⟩ := identity_eq_ok.mp told
    obtain ⟨again, both⟩ := identity_eq_ok.mp (equal ▸ told)
    exact differ (kind.trans again.symm) (text.trans both.symm)
  refine List.pairwise_map.mpr ((List.pairwise_map.mp unlike).imp (fun differ equal => differ ?_))
  rw [equal]

/-- An identity whose list was not checked has no postings. -/
theorem postingsOf_of_not_mem {postings : List PostingRow}
    {lists : List (SeenIdentity × List Posting)} (held : tables.postings = some postings)
    (same : (postings.mergeSort Stored.rowPrecedes).map stored.identity =
      lists.map (fun list => .ok list.1)) {identity : SeenIdentity}
    (absent : ∀ list ∈ lists, list.1 ≠ identity) :
    (stored.reader (.ok (.tables tables))).postingsOf identity = .ok [] := by
  have none_ : postings.find? (fun row =>
      row.kind = .text identity.kind.name && row.text = identity.text) = none := by
    refine List.find?_eq_none.mpr (fun row member named => ?_)
    simp only [Bool.and_eq_true, decide_eq_true_eq] at named
    have told : (.ok identity : Except Fault SeenIdentity) ∈
        lists.map (fun list => .ok list.1) := by
      rw [← same, ← identity_eq_ok.mpr named]
      exact List.mem_map_of_mem (List.mem_mergeSort.mpr member)
    obtain ⟨list, inside, equal⟩ := List.mem_map.mp told
    exact absent list inside (Except.ok.inj equal)
  simp only [Stored.reader, ok_bind, Stored.postings, Content.table, held, none_]
  rfl

end Reading

section Checked

variable {path : Path} {stored : Stored} {tables : Tables} {rows : List TokenRow}
  {postings : List PostingRow} {counts : List Nat} {lists : List (SeenIdentity × List Posting)}

theorem Stored.Counts.length (counted : stored.Counts counts) :
    counts.length = stored.entries.length := by
  simpa using (congrArg List.length counted).symm

/-- The numbers of a window that ends where its file is said to end fit into columns. -/
theorem columns_of_load (opened : Stored.load path (.tables tables) = .ok stored)
    (integers : ∀ files, tables.files = some files → ∀ row ∈ files, ∀ n,
      Cell.integer n ∈ Row.cells row → Cell.fitsColumn n = true)
    (counted : stored.Counts counts) {file count : Nat} (known : counts[file]? = some count) :
    checkColumns [(file : Int), max 0 0, count] = .ok () := by
  obtain ⟨files, _, held, _, each⟩ := parts_of_load opened
  have told := congrArg (fun (cells : List Cell) => cells[file]?) counted
  simp only [List.getElem?_map, known, Option.map_some] at told
  obtain ⟨entry, listed, isCount⟩ := Option.map_eq_some_iff.mp told
  obtain ⟨id, row, member, rfl⟩ := each file entry listed
  have fits {n : Int} : Cell.integer n ∈ Row.cells row → Cell.fitsColumn n = true :=
    integers files held row member n
  refine checkColumns_eq_ok.mpr ?_
  simp only [List.forall_mem_cons, List.not_mem_nil, false_imp_iff, implies_true, and_true]
  refine ⟨?_, by decide, fits ?_⟩
  · rw [← id]
    exact fits (by simp [Row.cells, FileRow.entry])
  · rw [← isCount]
    simp [Row.cells, FileRow.entry]

theorem inside_of_within (counted : stored.Counts counts)
    (within : Within (stored.reader (.ok (.tables tables))) counts)
    (passes : Passes (stored.reader (.ok (.tables tables))) lists) :
    ∀ list ∈ lists, ∀ posting ∈ list.2, posting ∈ Posting.places counts := by
  intro list member posting held
  obtain ⟨low, high, nonneg, _⟩ := passes.leads list member posting held
  obtain ⟨first, second⟩ := posting
  obtain ⟨file, rfl⟩ := Int.eq_ofNat_of_zero_le low
  obtain ⟨place, rfl⟩ := Int.eq_ofNat_of_zero_le nonneg
  have inside : file < counts.length := counted.length ▸ Int.ofNat_lt.mp high
  have known := List.getElem?_eq_getElem inside
  have below := within _ _ (passes.told list member) _ held file _ rfl known
  exact Posting.mem_places.mpr ⟨file, place, _, known, Int.ofNat_lt.mp below, rfl⟩

/-- If the check tells of nothing, each place that the counts give is in one of the lists it went
through. -/
theorem covers_of_validate (lists_ : tables.postings = some postings) (apart : Apart postings)
    (counted : stored.Counts counts)
    (within : Within (stored.reader (.ok (.tables tables))) counts)
    (checked : (stored.reader (.ok (.tables tables))).validate = .ok []) :
    ∃ lists, Passes (stored.reader (.ok (.tables tables))) lists ∧
      (postings.mergeSort Stored.rowPrecedes).map stored.identity =
        lists.map (fun list => .ok list.1) ∧
      ∀ posting ∈ Posting.places counts, ∃ list ∈ lists, posting ∈ list.2 := by
  obtain ⟨tokens, lists, total, listed, passes, agrees⟩ := Reader.validate_eq_nil.mp checked
  obtain ⟨_, held, same⟩ := lists_of_identities listed
  cases lists_.symm.trans held
  have sum : totalTokens stored.entries = .ok (.integer counts.sum) :=
    totalTokens_of_counts counted
  cases sum.symm.trans total
  rw [Cell.agrees_integer, decide_eq_true_eq, Int.natCast_inj] at agrees
  exact ⟨lists, passes, same, (passes.held_eq_iff (nodup_of_apart apart same)
    (inside_of_within counted within passes)).mp agrees.symm⟩

section Covered

variable (held : tables.tokens = some rows) (placed : Placed rows)
  (passes : Passes (stored.reader (.ok (.tables tables))) lists)
  (covers : ∀ posting ∈ Posting.places counts, ∃ list ∈ lists, posting ∈ list.2)

include held placed passes covers

/-- A place with a posting has the row that the posting leads to. -/
theorem stands_of_covers {file place count : Nat} (known : counts[file]? = some count)
    (below : place < count) :
    ∃ list ∈ lists, ⟨file, place⟩ ∈ list.2 ∧ Stands rows list.1 file place ∧
      ∀ row ∈ rows, row.key? = some ((file : Int), (place : Int)) →
        ∃ token, stored.token row = .ok token := by
  obtain ⟨list, member, inside⟩ :=
    covers _ (Posting.mem_places.mpr ⟨file, place, count, known, below, rfl⟩)
  exact ⟨list, member, inside, stands_of_leads held placed (passes.leads list member _ inside)⟩

theorem window_of_covers {file count : Nat} (known : counts[file]? = some count)
    (columns : checkColumns [(file : Int), max 0 0, count] = .ok ()) :
    ∃ tokens, (stored.reader (.ok (.tables tables))).window file 0 count = .ok tokens ∧
      tokens.length = count := by
  have length := placed.length_windowRows (fun other below => by
    obtain ⟨_, _, _, ⟨row, member, named, _⟩, _⟩ :=
      stands_of_covers held placed passes covers known below
    exact ⟨row, member, named⟩)
  obtain ⟨tokens, read⟩ : ∃ tokens, (windowRows rows file 0 count).mapM stored.token = .ok tokens := by
    refine mapM_of_each (fun row member => ?_)
    obtain ⟨inside, other, named, lower, upper⟩ := (mem_windowRows placed.keyed).mp member
    obtain ⟨number, rfl⟩ := Int.eq_ofNat_of_zero_le lower
    obtain ⟨_, _, _, _, readable⟩ :=
      stands_of_covers held placed passes covers known (Int.ofNat_lt.mp upper)
    exact readable row inside named
  refine ⟨tokens, ?_, (length_of_mapM read).trans length⟩
  rw [window_reader stored held, columns, ok_bind, read]

/-- The postings of an identity are all places where it stands. -/
theorem postings_of_covers {identity : SeenIdentity} {places : List Posting}
    (told : (stored.reader (.ok (.tables tables))).postingsOf identity = .ok places)
    (sound : ∀ posting ∈ places,
      posting ∈ Posting.places counts ∧ Stands rows identity posting.file posting.token)
    (posting : Posting) : posting ∈ places ↔ ∃ (file place count : Nat),
      counts[file]? = some count ∧ place < count ∧ posting = ⟨file, place⟩ ∧
        Stands rows identity file place := by
  constructor
  · intro member
    obtain ⟨inside, stands⟩ := sound posting member
    obtain ⟨file, place, count, known, below, rfl⟩ := Posting.mem_places.mp inside
    exact ⟨file, place, count, known, below, rfl, stands⟩
  · rintro ⟨file, place, count, known, below, rfl, stands⟩
    obtain ⟨list, member, inside, own, _⟩ :=
      stands_of_covers held placed passes covers known below
    have same := passes.told list member
    rw [own.unique placed stands, told] at same
    exact Except.ok.inj same ▸ inside

end Covered

/-- An opened artifact, whatever rows it holds, whose check tells of nothing: if no posting goes beyond
the tokens of its file, all tokens are there and no posting is missing. -/
theorem complete_of_validate (opened : Stored.load path (.tables tables) = .ok stored)
    (integers : ∀ files, tables.files = some files → ∀ row ∈ files, ∀ n,
      Cell.integer n ∈ Row.cells row → Cell.fitsColumn n = true)
    (held : tables.tokens = some rows) (placed : Placed rows)
    (lists_ : tables.postings = some postings) (apart : Apart postings)
    (counted : stored.Counts counts)
    (within : Within (stored.reader (.ok (.tables tables))) counts)
    (checked : (stored.reader (.ok (.tables tables))).validate = .ok []) :
    Complete (stored.reader (.ok (.tables tables))) rows counts := by
  obtain ⟨lists, passes, same, covers⟩ := covers_of_validate lists_ apart counted within checked
  refine ⟨fun file count known => ?_, fun identity => ?_⟩
  · exact window_of_covers held placed passes covers known
      (columns_of_load opened integers counted known)
  · by_cases listed : ∃ list ∈ lists, list.1 = identity.seen
    · obtain ⟨list, member, own⟩ := listed
      have told := own ▸ passes.told list member
      refine ⟨list.2, told, passes.ascending list member, postings_of_covers held placed passes covers
        told (fun posting inside => ⟨?_, ?_⟩)⟩
      · exact inside_of_within counted within passes list member posting inside
      · exact own ▸ (stands_of_leads held placed (passes.leads list member posting inside)).1
    · have told := @postingsOf_of_not_mem stored tables postings lists lists_ same identity.seen
        (fun list member own => listed ⟨list, member, own⟩)
      exact ⟨[], told, .nil, postings_of_covers held placed passes covers told (by simp)⟩

end Checked

section Twins

/-- The row of the one token of a file. -/
def twinRow (file : Int) (name : String) : TokenRow :=
  ⟨.integer file, .integer 0, .text "identifier", .text name,
    ⟨.integer 0, .integer 1, .integer 1⟩, ⟨.integer 1, .integer 1, .integer 2⟩⟩

def twinRows : List TokenRow := [twinRow 0 "x", twinRow 1 "y"]

def twinLists : List PostingRow :=
  [⟨.text "identifier", .text "x", .blob [0, 0, 0, 0, 0, 0, 0, 0]⟩,
    ⟨.text "identifier", .text "y", .blob [1, 0, 0, 0, 0, 0, 0, 0]⟩]

/-- An artifact of two files of one token each, which are said to hold so and so many. -/
def twinTables (first second : Nat) : Tables where
  header := some [⟨.text "format_version", .text formatVersion⟩, ⟨.text "file_count", .text "2"⟩,
    ⟨.text "token_count", .text "2"⟩, ⟨.text "posting_keys", .text "2"⟩,
    ⟨.text "byteorder", .text nativeOrder⟩]
  files := some [⟨0, .text "a.c", .integer 1, .text "", .null, .integer first, .blob [120]⟩,
    ⟨1, .text "b.c", .integer 1, .text "", .null, .integer second, .blob [121]⟩]
  tokens := some twinRows
  postings := some twinLists
  skipped := some []

def twinStored (first second : Nat) : Stored where
  path := default
  header := (twinTables first second).header.getD []
  entries := ((twinTables first second).files.getD []).map FileRow.entry

theorem twinRows_placed : Placed twinRows where
  keyed := by simp [twinRows, twinRow, TokenRow.key?, Cell.integer?]
  apart := by decide

theorem twinLists_apart : Apart twinLists := by simp [Apart, twinLists]

/-- All postings name the first token of their file. -/
theorem twinStored_within :
    Within ((twinStored 1 1).reader (.ok (.tables (twinTables 1 1)))) [1, 1] := by
  intro identity places told posting member file count _ known
  have one : count = 1 := by simpa using List.mem_of_getElem? known
  have first : posting.token = 0 := by
    have read : (twinStored 1 1).postings (.tables (twinTables 1 1)) identity = .ok places := told
    unfold Stored.postings at read
    obtain ⟨_, ⟨⟩, read⟩ := bind_eq_ok.mp read
    split at read
    · cases read
      contradiction
    · rename_i row found
      have listed : row ∈ twinLists := List.mem_of_find?_eq_some found
      simp only [twinLists, List.mem_cons, List.not_mem_nil, or_false] at listed
      rcases listed with rfl | rfl <;> cases read <;> cases List.mem_singleton.mp member <;> rfl
  omega

/-- The files are said to hold one token each, as they do. -/
theorem twinTables_complete :
    Stored.load default (.tables (twinTables 1 1)) = .ok (twinStored 1 1) ∧
      ((twinStored 1 1).reader (.ok (.tables (twinTables 1 1)))).validate = .ok [] ∧
      Complete ((twinStored 1 1).reader (.ok (.tables (twinTables 1 1)))) twinRows [1, 1] := by
  have opened : Stored.load default (.tables (twinTables 1 1)) = .ok (twinStored 1 1) := by cbv
  have checked : ((twinStored 1 1).reader (.ok (.tables (twinTables 1 1)))).validate = .ok [] := by
    cbv
  have integers : ∀ files, (twinTables 1 1).files = some files → ∀ row ∈ files, ∀ n,
      Cell.integer n ∈ Row.cells row → Cell.fitsColumn n = true := by
    rintro _ ⟨⟩
    have fits : Cell.fitsColumn 0 = true ∧ Cell.fitsColumn 1 = true := by decide
    simpa [Row.cells] using fits
  exact ⟨opened, checked, complete_of_validate opened integers rfl twinRows_placed rfl
    twinLists_apart rfl twinStored_within checked⟩

/-- One file is said to hold two tokens and the other none; the sum is right, and nothing is told of. -/
theorem miscounted_twins_pass :
    Stored.load default (.tables (twinTables 2 0)) = .ok (twinStored 2 0) ∧
      ((twinStored 2 0).reader (.ok (.tables (twinTables 2 0)))).validate = .ok [] ∧
      (twinStored 2 0).Counts [2, 0] ∧
      ¬ Complete ((twinStored 2 0).reader (.ok (.tables (twinTables 2 0)))) twinRows [2, 0] := by
  refine ⟨by cbv, by cbv, rfl, fun complete => ?_⟩
  have short : (((twinStored 2 0).reader (.ok (.tables (twinTables 2 0)))).window 0 0 2).map
      List.length = .ok 1 := by cbv
  obtain ⟨tokens, read, length⟩ := complete.windows 0 2 rfl
  have told : ((twinStored 2 0).reader (.ok (.tables (twinTables 2 0)))).window 0 0 2 =
    .ok tokens := read
  rw [told] at short
  cases length.symm.trans (Except.ok.inj short)

end Twins

end TokenSearch.Artifact
