import TokenSearch.Proofs.Artifact.Load
import TokenSearch.Proofs.Artifact.TokenRows
import TokenSearch.Proofs.Index.Rebuild
import TokenSearch.Proofs.Table.Cell

namespace TokenSearch.Artifact

/-! Artifacts that lost rows, or whose rows were spoiled. If as many tokens of a file can still be read
as the file had, they are the tokens that it had. -/

open Data

/-- Token rows of which some are gone, and some have a kind that does not exist. -/
inductive Worn : List TokenRow → List TokenRow → Prop where
  | nil : Worn [] []
  | keep {old new : List TokenRow} (row : TokenRow) (rest : Worn old new) :
      Worn (row :: old) (row :: new)
  | lose {old new : List TokenRow} (row : TokenRow) (rest : Worn old new) : Worn (row :: old) new
  | spoil {old new : List TokenRow} (row : TokenRow) {kind : Cell}
      (unknown : kind.text?.bind TokenKind.ofName? = none) (rest : Worn old new) :
      Worn (row :: old) ({ row with kind } :: new)

namespace Worn

theorem refl (rows : List TokenRow) : Worn rows rows := by
  induction rows with
  | nil => exact .nil
  | cons row rest ih => exact .keep row ih

theorem trans {first second third : List TokenRow} (early : Worn first second)
    (late : Worn second third) : Worn first third := by
  induction early generalizing third with
  | nil => exact late
  | lose row _ ih => exact .lose row (ih late)
  | keep row _ ih =>
      cases late with
      | keep _ rest => exact .keep row (ih rest)
      | lose _ rest => exact .lose row (ih rest)
      | spoil _ unknown rest => exact .spoil row unknown (ih rest)
  | spoil row unknown _ ih =>
      cases late with
      | keep _ rest => exact .spoil row unknown (ih rest)
      | lose _ rest => exact .lose row (ih rest)
      | spoil _ other rest => exact .spoil row other (ih rest)

theorem length_le {old new : List TokenRow} (worn : Worn old new) : new.length ≤ old.length := by
  induction worn with
  | nil => exact Nat.le_refl _
  | keep | spoil => simpa
  | lose =>
      rw [List.length_cons]
      omega

theorem filter {old new : List TokenRow} (worn : Worn old new) (keeps : TokenRow → Bool)
    (blind : ∀ row kind, keeps { row with kind } = keeps row) :
    Worn (old.filter keeps) (new.filter keeps) := by
  induction worn with
  | nil => exact .nil
  | keep row _ ih =>
      rw [List.filter_cons, List.filter_cons]
      split
      · exact .keep row ih
      · exact ih
  | lose row _ ih =>
      rw [List.filter_cons]
      split
      · exact .lose row ih
      · exact ih
  | @spoil _ _ row kind unknown _ ih =>
      have same := blind row kind
      rw [List.filter_cons, List.filter_cons, same]
      cases kept : keeps row with
      | true => exact .spoil row unknown ih
      | false => exact ih

/-- Rows of which none is gone, and which all can be read, are the rows that were there. -/
theorem eq_of_readable {old new : List TokenRow} (worn : Worn old new) {stored : Stored}
    (readable : ∀ row ∈ new, ∃ seen, stored.token row = .ok seen)
    (complete : new.length = old.length) : new = old := by
  induction worn with
  | nil => rfl
  | keep row _ ih =>
      rw [ih (fun other member => readable other (List.mem_cons_of_mem _ member))
        (Nat.succ.inj complete)]
  | lose row rest _ =>
      have bound := rest.length_le
      rw [List.length_cons] at complete
      omega
  | spoil row unknown _ _ =>
      obtain ⟨seen, read⟩ := readable _ List.mem_cons_self
      obtain ⟨kind, known, _⟩ := bind_eq_ok.mp read
      simp [Stored.kind, unknown] at known

end Worn

/-- If a file reads as as many tokens as it had, it reads as the tokens that it had. -/
theorem window_of_worn (stored : Stored) {files : List IndexedFile} (dense : Index.Dense files)
    {number : Nat} {file : IndexedFile} (held : files[number]? = some file) {rows : List TokenRow}
    (worn : Worn (tokenRowsOf files) rows) {seen : List SeenToken}
    (read : (windowRows rows number 0 file.tokens.length).mapM stored.token = .ok seen)
    (complete : seen.length = file.tokens.length) : seen = file.tokens.map Token.seen := by
  have asked (rows : List TokenRow) : windowRows rows number 0 file.tokens.length =
      (rows.filter (inWindow number 0 file.tokens.length)).mergeSort
        (fun a b => a.place.precedes b.place) := rfl
  have whole : slice file.tokens (0 : Nat) file.tokens.length = file.tokens := by
    rw [slice_natCast, List.drop_zero, Nat.sub_zero, List.take_length]
  have intact : (windowRows (tokenRowsOf files) number 0 file.tokens.length).mapM stored.token =
      .ok (file.tokens.map Token.seen) := by
    have told := window_tokens stored dense held 0 file.tokens.length
    rw [whole] at told
    exact told
  have left := worn.filter (inWindow number 0 file.tokens.length) (fun _ _ => rfl)
  have size : (rows.filter (inWindow number 0 file.tokens.length)).length =
      ((tokenRowsOf files).filter (inWindow number 0 file.tokens.length)).length := by
    have few := length_of_mapM read
    have many := length_of_mapM intact
    rw [asked, List.length_mergeSort] at few many
    rw [← few, ← many, complete, List.length_map]
  have readable : ∀ row ∈ rows.filter (inWindow number 0 file.tokens.length),
      ∃ seen, stored.token row = .ok seen := fun row member =>
    each_of_mapM read row (by rwa [asked, List.mem_mergeSort])
  rw [asked, left.eq_of_readable readable size, ← asked, intact] at read
  exact (Except.ok.inj read).symm

/-- What damage leaves of tables: the file table as far as it tells of files, and worn token rows.
Sources, postings, skipped files and the header may be anything. -/
structure Damaged (before after : Tables) : Prop where
  files : after.files.map (List.map FileRow.entry) = before.files.map (List.map FileRow.entry)
  tokens : ∃ old new, before.tokens = some old ∧ after.tokens = some new ∧ Worn old new

/-- Tables in which lexed files were written, and which may have been damaged since. -/
structure Grounded (contents : List Bytes) (tables : Tables) : Prop where
  intro ::
  lexed : ∃ files, Index.Lexed contents files ∧
    tables.files.map (List.map FileRow.entry) = some (files.map IndexedFile.entry) ∧
    ∃ rows, tables.tokens = some rows ∧ Worn (tokenRowsOf files) rows

theorem Grounded.damaged {contents : List Bytes} {before after : Tables}
    (grounded : Grounded contents before) (damaged : Damaged before after) :
    Grounded contents after := by
  obtain ⟨files, lexed, told, rows, held, worn⟩ := grounded.lexed
  obtain ⟨old, new, heldOld, heldNew, worse⟩ := damaged.tokens
  rw [held, Option.some.injEq] at heldOld
  subst heldOld
  exact ⟨files, lexed, damaged.files.trans told, new, heldNew, worn.trans worse⟩

theorem grounded_tablesOf {contents : List Bytes} {index : Index}
    (lexed : Index.Lexed contents index.files) (rows : List SkippedRow) (kept created : String) :
    Grounded contents (tablesOf index rows kept created) := by
  refine ⟨index.files, lexed, ?_, _, rfl, .refl _⟩
  simp only [tablesOf, Option.map_some, List.map_map]
  rfl

theorem token?_seen (token : Token) : token.seen.token? = some token := rfl

theorem mapM_token?_seen (tokens : List Token) :
    (tokens.map Token.seen).mapM SeenToken.token? = some tokens := by
  induction tokens with
  | nil => rfl
  | cons token rest ih => simp [token?_seen, ih]

theorem source_of_isEquivalent {contents : List Bytes} (apart : Apart contents)
    {files : List IndexedFile} (lexed : Index.Lexed contents files) {file : IndexedFile}
    (member : file ∈ files) {content : Bytes} (known : content ∈ contents) {modified : Option Int}
    (same : file.entry.isEquivalent (.ofContent content modified) = true) : file.source = content :=
  (isEquivalent_entry apart (lexed.printed file member) (lexed.known file member) known _).mp same

/-- The tokens that an opened artifact still has for a content are the tokens of that content, since
nothing else has its size and digest. -/
theorem Grounded.faithful {contents : List Bytes} {tables : Tables}
    (grounded : Grounded contents tables) (apart : Apart contents) {path : Path} {stored : Stored}
    (opened : Stored.load path (.tables tables) = .ok stored) :
    (stored.reader (.ok (.tables tables))).Faithful contents := by
  intro name content modified tokens known reused
  obtain ⟨files, lexed, told, rows, held, worn⟩ := grounded.lexed
  obtain ⟨fileRows, heldFiles, sameEntries⟩ := Option.map_eq_some_iff.mp told
  have entries := entries_of_load lexed.dense heldFiles sameEntries opened
  obtain ⟨entry, seen, found, same, read, complete, restored⟩ := Build.of_reuse_found reused
  have listed : entry ∈ files.map IndexedFile.entry := by
    rw [← entries]
    exact List.mem_reverse.mp (List.mem_of_find?_eq_some found)
  obtain ⟨file, member, rfl⟩ := List.mem_map.mp listed
  obtain ⟨number, place⟩ := List.getElem?_of_mem member
  have id : file.entry.id = number := lexed.dense number file place
  have size : seen.length = file.tokens.length := by
    simp only [IndexedFile.entry, Cell.agrees_integer, decide_eq_true_eq] at complete
    omega
  rw [id, window_reader stored held] at read
  obtain ⟨_, _, read⟩ := bind_eq_ok.mp read
  rw [window_of_worn stored lexed.dense place worn read size, mapM_token?_seen,
    Option.some.injEq] at restored
  rw [← source_of_isEquivalent apart lexed member known same, lexed.lexed file member, restored]

end TokenSearch.Artifact
