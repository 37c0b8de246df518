import TokenSearch.Artifact.Stored
import TokenSearch.Proofs.Artifact.Encode
import TokenSearch.Proofs.Artifact.Shelf

namespace TokenSearch.Artifact

/-! The token rows of an index, file by file and place by place. -/

open Data

def tokenRow (file : Int) (place : Nat) (token : Token) : TokenRow :=
  ⟨.integer file, .integer place, .text token.kind.name, .text token.text, token.start.spot,
    token.stop.spot⟩

@[simp]
theorem key?_tokenRow (file : Int) (place : Nat) (token : Token) :
    (tokenRow file place token).key? = some (file, (place : Int)) := rfl

theorem tokenRowsFrom_eq (file : Int) (place : Nat) (tokens : List Token) :
    tokenRowsFrom file place tokens =
      (tokens.zipIdx place).map (fun (token, place) => tokenRow file place token) := by
  induction tokens generalizing place with
  | nil => rfl
  | cons token rest ih => simp [tokenRowsFrom, tokenRow, ih]

def inWindow (file first stop : Int) (row : TokenRow) : Bool :=
  row.file.agrees (.integer file) && (Cell.integer first).precedes row.place &&
    !(Cell.integer stop).precedes row.place

theorem inWindow_tokenRow (file first stop other : Int) (place : Nat) (token : Token) :
    inWindow file first stop (tokenRow other place token) =
      decide (other = file ∧ first ≤ place ∧ place < stop) := by
  rw [Bool.eq_iff_iff]
  simp only [inWindow, tokenRow, Cell.agrees_integer, Cell.precedes_integer, Bool.and_eq_true,
    decide_eq_true_eq, Bool.not_eq_true', decide_eq_false_iff_not]
  omega

/-- Of the rows of all files, a window holds only rows of its own file. -/
theorem filter_tokenRowsOf {files : List IndexedFile} (dense : Index.Dense files) {number : Nat}
    {file : IndexedFile} (held : files[number]? = some file) (first stop : Int) :
    (tokenRowsOf files).filter (inWindow number first stop) =
      (tokenRowsFrom number 0 file.tokens).filter (inWindow number first stop) := by
  have other : ∀ part : List IndexedFile, (∀ file ∈ part, file.id ≠ number) →
      (tokenRowsOf part).filter (inWindow number first stop) = [] := by
    intro part differs
    rw [List.filter_eq_nil_iff]
    intro row member
    obtain ⟨owner, inside, rowMember⟩ := List.mem_flatMap.mp member
    rw [tokenRowsFrom_eq] at rowMember
    obtain ⟨⟨token, place⟩, _, rfl⟩ := List.mem_map.mp rowMember
    simp [inWindow_tokenRow, differs owner inside]
  have bound := (List.getElem?_eq_some_iff.mp held).1
  have split : files.take number ++ file :: files.drop (number + 1) = files := by
    rw [← (List.getElem?_eq_some_iff.mp held).2, ← List.drop_eq_getElem_cons bound,
      List.take_append_drop]
  have id : file.id = number := dense number file held
  have apart : ∀ (place : Nat) (owner : IndexedFile), files[place]? = some owner →
      place ≠ number → owner.id ≠ number := by
    intro place owner found differs same
    rw [dense place owner found] at same
    omega
  have before : ∀ owner ∈ files.take number, owner.id ≠ number := by
    intro owner member
    obtain ⟨place, found⟩ := List.getElem?_of_mem member
    rw [List.getElem?_take] at found
    split at found
    · rename_i less
      exact apart place owner found (Nat.ne_of_lt less)
    · contradiction
  have behind : ∀ owner ∈ files.drop (number + 1), owner.id ≠ number := by
    intro owner member
    obtain ⟨place, found⟩ := List.getElem?_of_mem member
    rw [List.getElem?_drop] at found
    exact apart _ owner found (by omega)
  have flat : tokenRowsOf files = tokenRowsOf (files.take number) ++
      (tokenRowsFrom number 0 file.tokens ++ tokenRowsOf (files.drop (number + 1))) := by
    refine (congrArg tokenRowsOf split).symm.trans ?_
    simp only [tokenRowsOf, List.flatMap_append, List.flatMap_cons, id]
  rw [flat, List.filter_append, List.filter_append, other _ before, other _ behind, List.nil_append,
    List.append_nil]

theorem filter_zipIdx (tokens : List Token) (place first stop : Nat) :
    ((tokens.zipIdx place).filter
        (fun pair => decide (first ≤ pair.2) && decide (pair.2 < stop))).map Prod.fst =
      (tokens.drop (first - place)).take (stop - max first place) := by
  induction tokens generalizing place with
  | nil => simp
  | cons token rest ih =>
      rw [List.zipIdx_cons, List.filter_cons]
      by_cases low : first ≤ place
      · have gone : first - place = 0 := by omega
        have goneNext : first - (place + 1) = 0 := by omega
        by_cases high : place < stop
        · have width : stop - max first place = (stop - max first (place + 1)) + 1 := by omega
          simp only [low, high, decide_true, Bool.and_self, if_true, List.map_cons, ih, gone,
            goneNext, width, List.drop_zero, List.take_succ_cons]
        · have width : stop - max first place = 0 := by omega
          have widthNext : stop - max first (place + 1) = 0 := by omega
          simp only [high, decide_false, Bool.and_false, Bool.false_eq_true, if_false, ih, width,
            widthNext, List.take_zero]
      · have left : first - place = (first - (place + 1)) + 1 := by omega
        have width : max first place = max first (place + 1) := by omega
        simp only [low, decide_false, Bool.false_and, Bool.false_eq_true, if_false, ih, left, width,
          List.drop_succ_cons]

theorem tokenRowsFrom_ascend (file : Int) (place : Nat) (tokens : List Token) :
    (tokenRowsFrom file place tokens).Pairwise (fun a b => a.place.precedes b.place) := by
  induction tokens generalizing place with
  | nil => exact .nil
  | cons token rest ih =>
      refine .cons (fun row member => ?_) (ih (place + 1))
      rw [tokenRowsFrom_eq] at member
      obtain ⟨⟨other, later⟩, inside, rfl⟩ := List.mem_map.mp member
      have bound := List.le_snd_of_mem_zipIdx inside
      simp [tokenRow]
      omega

theorem token_tokenRow (stored : Stored) (file : Int) (place : Nat) (token : Token) :
    stored.token (tokenRow file place token) = .ok token.seen := by
  simp [Stored.token, Stored.kind, tokenRow, Cell.text?]
  rfl

theorem windowRows_tokenRowsOf {files : List IndexedFile} (dense : Index.Dense files) {number : Nat}
    {file : IndexedFile} (held : files[number]? = some file) {start : Int} (nonneg : 0 ≤ start)
    (stop : Int) :
    windowRows (tokenRowsOf files) number start stop =
      (tokenRowsFrom number 0 file.tokens).filter (inWindow number start stop) := by
  have first : max start 0 = start := by omega
  have sorted := (tokenRowsFrom_ascend number 0 file.tokens).filter (inWindow number start stop)
  rw [windowRows, first]
  rw [← filter_tokenRowsOf dense held] at sorted ⊢
  exact List.mergeSort_of_pairwise sorted

/-- A range of the places of a stored file reads as that range of its tokens. -/
theorem window_tokens (stored : Stored) {files : List IndexedFile} (dense : Index.Dense files)
    {number : Nat} {file : IndexedFile} (held : files[number]? = some file) (start stop : Nat) :
    (windowRows (tokenRowsOf files) number start stop).mapM stored.token =
      .ok ((slice file.tokens start stop).map Token.seen) := by
  have kept : (tokenRowsFrom number 0 file.tokens).filter (inWindow number start stop) =
      ((file.tokens.zipIdx 0).filter
        (fun pair => decide (start ≤ pair.2) && decide (pair.2 < stop))).map
        (fun (token, place) => tokenRow number place token) := by
    rw [tokenRowsFrom_eq, List.filter_map]
    congr 2
    funext pair
    simp [inWindow_tokenRow, Bool.decide_and]
  have range := filter_zipIdx file.tokens 0 start stop
  rw [Nat.sub_zero, Nat.max_zero] at range
  have read : ∀ pair ∈ (file.tokens.zipIdx 0).filter
      (fun pair => decide (start ≤ pair.2) && decide (pair.2 < stop)),
      stored.token (tokenRow number pair.2 pair.1) = .ok pair.1.seen :=
    fun pair _ => token_tokenRow stored number pair.2 pair.1
  rw [windowRows_tokenRowsOf dense held (Int.natCast_nonneg _), kept, slice_natCast, ← range,
    List.mapM_map, List.map_map]
  exact mapM_ok read

/-- A window of an opened artifact is read off its token rows, if its bounds fit into columns. -/
theorem window_reader (stored : Stored) {tables : Tables} {rows : List TokenRow}
    (held : tables.tokens = some rows) (file start stop : Int) :
    (stored.reader (.ok (.tables tables))).window file start stop = (do
      checkColumns [file, max start 0, stop]
      (windowRows rows file start stop).mapM stored.token) := by
  have shelf : stored.shelf (.tables tables) = .ok (.ofRows rows) := by
    rw [Stored.shelf, Content.table, held]
    rfl
  simp only [Stored.reader, Except.bind, shelf, ok_bind, Stored.window, Shelf.window_ofRows]

end TokenSearch.Artifact
