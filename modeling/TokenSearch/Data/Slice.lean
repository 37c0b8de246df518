namespace TokenSearch.Data

/-! Slices and places of a list by integer bounds. A bound below zero counts from the end, and a
bound outside the list stands for the nearest one inside. -/

def clamp (length : Nat) (bound : Int) : Nat :=
  if bound < 0 then (bound + length).toNat else min bound.toNat length

/-- The elements from `start` up to, and not including, `stop`. -/
def slice (xs : List α) (start stop : Int) : List α :=
  let first := clamp xs.length start
  (xs.drop first).take (clamp xs.length stop - first)

/-- The slice of a row of which the elements can be reached at once. -/
def sliceRow (row : Array α) (start stop : Int) : List α :=
  (row.extract (clamp row.size start) (clamp row.size stop)).toList

theorem sliceRow_toArray (xs : List α) (start stop : Int) :
    sliceRow xs.toArray start stop = slice xs start stop := by
  simp [sliceRow, slice]

/-- The element at a place; a place outside the list has none. -/
def at? (xs : List α) (place : Int) : Option α :=
  if place < 0 then
    if (place + xs.length) < 0 then none else xs[(place + xs.length).toNat]?
  else xs[place.toNat]?

theorem slice_of_nonneg {xs : List α} {start stop : Int} (ordered : start ≤ stop)
    (nonneg : 0 ≤ start) (inside : stop ≤ xs.length) :
    slice xs start stop = (xs.drop start.toNat).take (stop.toNat - start.toNat) := by
  have startInside : min start.toNat xs.length = start.toNat := by omega
  have stopInside : min stop.toNat xs.length = stop.toNat := by omega
  have startPositive : ¬ start < 0 := by omega
  have stopPositive : ¬ stop < 0 := by omega
  simp [slice, clamp, startPositive, stopPositive, startInside, stopInside]

end TokenSearch.Data
