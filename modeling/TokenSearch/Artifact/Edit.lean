import Std.Data.HashSet
import TokenSearch.Artifact.Schema
import TokenSearch.Fault

namespace TokenSearch.Artifact

/-! Edits of single rows, as a tool for tables makes them. Rows are named by the values of their
columns, and an edit that breaks a rule of the table changes nothing. -/

/-- Values by the names of their columns. -/
abbrev Cells := Data.Assoc String Cell

/-- What is done to the rows of one table. -/
inductive RowEdit where
  | update (which set : Cells)
  | insert (cells : Cells)
  | delete (which : Cells)
deriving Repr

inductive Edit where
  | rows (table : String) (edit : RowEdit)
  | drop (table : String)
deriving Repr

namespace Edit

/-- The value of a column, by its name; case does not count. -/
def valueOf? (cells : Cells) (column : Column) : Option Cell :=
  (cells.find? (fun (name, _) => name.map Char.toLower = column.name)).map Prod.snd

/-- The first name that no column has. -/
def stranger? (columns : List Column) (cells : Cells) : Option String :=
  (cells.find? (fun (name, _) =>
    !columns.any (fun column => column.name = name.map Char.toLower))).map Prod.fst

/-- An integer that no column can hold is not even looked at. -/
def checkWidths (cells : Cells) : Except Fault Unit :=
  if cells.all (fun (_, cell) => cell.integer?.all Cell.fitsColumn) then .ok ()
  else .error .integerTooWide

/-- Names that must be those of columns. -/
def checkNames (columns : List Column) (cells : Cells) : Except Fault Unit :=
  match stranger? columns cells with
  | some name => .error (.table (.noColumn name))
  | none => .ok ()

/-- Whether the cells of a row have the wanted values, each as its column would keep it. -/
def isWanted (columns : List Column) (which : Cells) (row : List Cell) : Bool :=
  (columns.zip row).all (fun (column, cell) =>
    match valueOf? which column with
    | some value => cell.agrees (column.affinity.keep value)
    | none => true)

/-- The first column that must be filled and is not. -/
def checkFilled (table : TableName) (columns : List Column) (row : List Cell) :
    Except Fault Unit :=
  match (columns.zip row).find? (fun (column, cell) => column.required && cell = .null) with
  | some (column, _) => .error (.table (.missingValue table.text column.name))
  | none => .ok ()

/-- The values of a key in a row; a key with an empty value is like no other. -/
def keyOf? (columns : List Column) (key : List String) (row : List Cell) : Option (List Cell) :=
  let cells := key.filterMap (fun name =>
    ((columns.zip row).find? (fun (column, _) => column.name = name)).map Prod.snd)
  if .null ∈ cells then none else some cells

/-- A key of a table, and its values in the rows. -/
structure Taken where
  key : List String
  values : Std.HashSet (List Cell)

def Taken.ofRows (columns : List Column) (rows : List (List Cell)) (key : List String) : Taken :=
  ⟨key, Std.HashSet.ofList (rows.filterMap (keyOf? columns key))⟩

def Taken.remove (columns : List Column) (row : List Cell) (taken : Taken) : Taken :=
  match keyOf? columns taken.key row with
  | some cells => { taken with values := taken.values.erase cells }
  | none => taken

/-- Takes the key of a row, which no other row may have. -/
def Taken.add (table : TableName) (columns : List Column) (row : List Cell) (taken : Taken) :
    Except Fault Taken :=
  match keyOf? columns taken.key row with
  | some cells =>
      if taken.values.contains cells then .error (.table (.repeatedKey table.text taken.key))
      else .ok { taken with values := taken.values.insert cells }
  | none => .ok taken

/-- The number of a file must be an integer. -/
def checkNumber (table : TableName) (row : List Cell) : Except Fault Unit :=
  match table, row with
  | .files, .integer _ :: _ => .ok ()
  | .files, _ => .error (.table .wrongKind)
  | _, _ => .ok ()

/-- One more than the greatest number of a file; the first number is one. -/
def nextNumber : List (List Cell) → Int
  | [] => 1
  | row :: rest =>
      match row with
      | .integer n :: _ => if rest.isEmpty then n + 1 else max (n + 1) (nextNumber rest)
      | _ => nextNumber rest

/-- A file that is put in without a number gets the next one. -/
def numbered (table : TableName) (rows : List (List Cell)) (row : List Cell) : List Cell :=
  match table, row with
  | .files, .null :: rest => .integer (nextNumber rows) :: rest
  | _, _ => row

def revised (columns : List Column) (set : Cells) (row : List Cell) : List Cell :=
  (columns.zip row).map (fun (column, cell) =>
    match valueOf? set column with
    | some value => column.affinity.keep value
    | none => cell)

/-- Files stand by their numbers, other rows as they came. -/
def arranged (table : TableName) (rows : List (List Cell)) : List (List Cell) :=
  match table with
  | .files => rows.mergeSort (fun a b => (a.headD .null).precedes (b.headD .null))
  | _ => rows

/-- Changes the wanted rows one after the other. The keys of each must differ from those that are
taken by then. -/
def changeRows (table : TableName) (columns : List Column) (which set : Cells)
    (taken : List Taken) : List (List Cell) → Except Fault (List (List Cell))
  | [] => .ok []
  | row :: rest =>
      if isWanted columns which row then do
        let changed := revised columns set row
        checkNumber table changed
        checkFilled table columns changed
        let left := taken.map (Taken.remove columns row)
        let taken ← left.mapM (Taken.add table columns changed)
        return changed :: (← changeRows table columns which set taken rest)
      else do return row :: (← changeRows table columns which set taken rest)

/-- The rows of a table after an edit that calls the table `name`. -/
def applyTo (name : String) (table : TableName) (columns : List Column)
    (keys : List (List String)) (rows : List (List Cell)) :
    RowEdit → Except Fault (List (List Cell))
  | .update which set => do
      checkNames columns set
      checkNames columns which
      checkWidths (set ++ which)
      let touched := keys.filter (fun key => key.any (fun column =>
        set.any (fun (other, _) => other.map Char.toLower = column)))
      changeRows table columns which set (touched.map (Taken.ofRows columns rows))
        (arranged table rows)
  | .insert cells => do
      match stranger? columns cells with
      | some column => .error (.table (.strangeColumn name column))
      | none => do
          checkWidths cells
          let empty := columns.map (fun _ => Cell.null)
          let row := numbered table rows (revised columns cells empty)
          checkNumber table row
          checkFilled table columns row
          (keys.map (Taken.ofRows columns rows)).forM (fun taken => do
            let _ ← taken.add table columns row)
          return rows ++ [row]
  | .delete which => do
      checkNames columns which
      checkWidths which
      return rows.filter (fun row => !isWanted columns which row)

/-- The rows of one of the tables after an edit. -/
def onRows [Row α] (name : String) (edit : RowEdit) (rows : List α) :
    Except Fault (List α) := do
  let after ← applyTo name (Row.table α) (Row.columns α) (Row.keys α) (rows.map Row.cells) edit
  return after.filterMap Row.ofCells?

/-- A table that is there, after an edit. -/
def onTable [Row α] (name : String) (edit : RowEdit) (rows : Option (List α)) :
    Except Fault (Option (List α)) :=
  match rows with
  | some rows => (onRows name edit rows).map some
  | none => .error (.table (.noTable name))

end Edit

/-- The tables after an edit. -/
def Tables.edit (tables : Tables) (edit : Edit) : Except Fault Tables :=
  let unknown (name : String) : Except Fault Tables := .error (.table (.noTable name))
  match edit with
  | .rows name edit =>
      match TableName.ofText? name with
      | none => unknown name
      | some .header => do
          return { tables with header := ← Edit.onTable name edit tables.header }
      | some .files => do
          return { tables with files := ← Edit.onTable name edit tables.files }
      | some .tokens => do
          return { tables with tokens := ← Edit.onTable name edit tables.tokens }
      | some .postings => do
          return { tables with postings := ← Edit.onTable name edit tables.postings }
      | some .skipped => do
          return { tables with skipped := ← Edit.onTable name edit tables.skipped }
  | .drop name =>
      match TableName.ofText? name with
      | none => unknown name
      | some .header =>
          if tables.header.isSome then .ok { tables with header := none } else unknown name
      | some .files =>
          if tables.files.isSome then .ok { tables with files := none } else unknown name
      | some .tokens =>
          if tables.tokens.isSome then .ok { tables with tokens := none } else unknown name
      | some .postings =>
          if tables.postings.isSome then .ok { tables with postings := none } else unknown name
      | some .skipped =>
          if tables.skipped.isSome then .ok { tables with skipped := none } else unknown name

/-- Makes edits in their order. Those of rows belong together from the first on: if one fails, none
of them is kept, and no drop among them either. Returns what is kept, and the fault. -/
def Tables.editAll (kept current : Tables) (open_ : Bool) : List Edit → Tables × Option Fault
  | [] => (current, none)
  | edit :: rest =>
      match current.edit edit with
      | .error fault => (kept, some fault)
      | .ok after =>
          match edit, open_ with
          | .drop _, false => editAll after after false rest
          | _, _ => editAll kept after true rest

end TokenSearch.Artifact
