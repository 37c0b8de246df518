import Std.Data.HashMap
import TokenSearch.Artifact.Tables

namespace TokenSearch.Artifact

/-! Token rows at hand by their files and places. A table in which these are integers, each pair of
them once, is looked up place by place; any other table is gone through row by row. -/

/-- The rows of a file from `start` up to `stop`, in ascending order. -/
def windowRows (rows : List TokenRow) (file start stop : Int) : List TokenRow :=
  let inside := rows.filter (fun row =>
    row.file.agrees (.integer file) && (Cell.integer (max start 0)).precedes row.place &&
      !(Cell.integer stop).precedes row.place)
  inside.mergeSort (fun a b => a.place.precedes b.place)

/-- The file and the place of a row, if both are integers. -/
def TokenRow.key? (row : TokenRow) : Option (Int × Int) := do
  return (← row.file.integer?, ← row.place.integer?)

/-- Rows by file and place. -/
abbrev Places := Std.HashMap (Int × Int) TokenRow

/-- Puts a row to its place, if it has one that is free. -/
def Places.put? (places : Places) (row : TokenRow) : Option Places := do
  let key ← row.key?
  if places.contains key then none else some (places.insert key row)

/-- A row is put to a place that was free; no other place changes. -/
theorem Places.getElem?_of_put? {places after : Places} {row : TokenRow} (key : Int × Int)
    (placed : places.put? row = some after) :
    after[key]? = places[key]?.or (if row.key? = some key then some row else none) := by
  unfold Places.put? at placed
  cases found : row.key? with
  | none => simp [found] at placed
  | some other =>
      simp only [found, Option.bind_eq_bind, Option.bind_some,
        Std.HashMap.contains_eq_isSome_getElem?] at placed
      by_cases same : other = key
      · subst same
        cases held : places[other]? with
        | some _ => simp [held] at placed
        | none =>
            simp only [held, Option.isSome_none, Bool.false_eq_true, if_false,
              Option.some.injEq] at placed
            simp [← placed]
      · cases held : places[other]? with
        | some _ => simp [held] at placed
        | none =>
            simp only [held, Option.isSome_none, Bool.false_eq_true, if_false,
              Option.some.injEq] at placed
            simp [← placed, Std.HashMap.getElem?_insert, same]

/-- Once rows are put to their places, a place that was free holds the row that names it. -/
theorem Places.getElem?_of_foldlM {rows : List TokenRow} {places after : Places} (key : Int × Int)
    (placed : rows.foldlM Places.put? places = some after) :
    after[key]? = places[key]?.or (rows.find? (fun row => row.key? = some key)) := by
  induction rows generalizing places with
  | nil =>
      cases placed
      simp
  | cons row rest ih =>
      rw [List.foldlM_cons] at placed
      cases first : places.put? row with
      | none => simp [first] at placed
      | some between =>
          have later := ih (by simpa [first] using placed)
          rw [later, Places.getElem?_of_put? key first, Option.or_assoc]
          by_cases named : row.key? = some key
          · simp [named]
          · simp [named]

structure Shelf where
  rows : List TokenRow
  count : Nat
  places : Option Places

namespace Shelf

def ofRows (rows : List TokenRow) : Shelf :=
  ⟨rows, rows.length, rows.foldlM Places.put? ∅⟩

/-- The rows of a file from `start` up to `stop`, in ascending order. A window wider than the table
is not walked place by place. -/
def window (shelf : Shelf) (file start stop : Int) : List TokenRow :=
  let first := max start 0
  match shelf.places with
  | some places =>
      if stop - first ≤ shelf.count then
        (List.range (stop - first).toNat).filterMap (fun (place : Nat) =>
          places[(file, first + place)]?)
      else windowRows shelf.rows file start stop
  | none => windowRows shelf.rows file start stop

end Shelf

end TokenSearch.Artifact
