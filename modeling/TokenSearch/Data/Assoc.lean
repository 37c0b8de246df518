namespace TokenSearch.Data

/-! Maps as lists of pairs, in the order in which their keys were first put. -/

abbrev Assoc (κ α : Type) := List (κ × α)

namespace Assoc

variable {κ α : Type} [DecidableEq κ]

def get? (map : Assoc κ α) (key : κ) : Option α :=
  match map with
  | [] => none
  | (k, value) :: rest => if k = key then some value else get? rest key

def contains (map : Assoc κ α) (key : κ) : Bool :=
  (get? map key).isSome

/-- Puts a value. A key that is there already keeps its place. -/
def put (map : Assoc κ α) (key : κ) (value : α) : Assoc κ α :=
  match map with
  | [] => [(key, value)]
  | (k, old) :: rest => if k = key then (k, value) :: rest else (k, old) :: put rest key value

def erase (map : Assoc κ α) (key : κ) : Assoc κ α :=
  map.filter (fun pair => pair.1 ≠ key)

/-- Of two pairs with one key, the later one counts. -/
def ofList (pairs : List (κ × α)) : Assoc κ α :=
  pairs.foldl (fun map pair => put map pair.1 pair.2) []

/-- The list of a key; a key that is not there has an empty one. -/
def listOf (map : Assoc κ (List α)) (key : κ) : List α := (get? map key).getD []

/-- Puts members at the end of the list of a key. A key without a list gets one. -/
def extend (map : Assoc κ (List α)) (key : κ) (more : List α) : Assoc κ (List α) :=
  put map key (listOf map key ++ more)

/-- Collects lists under their keys, one pair after the other. -/
def gather (pairs : List (κ × List α)) : Assoc κ (List α) :=
  pairs.foldl (fun map pair => extend map pair.1 pair.2) []

def keys (map : Assoc κ α) : List κ := map.map Prod.fst

def values (map : Assoc κ α) : List α := map.map Prod.snd

@[simp]
theorem get?_put (map : Assoc κ α) (key other : κ) (value : α) :
    get? (put map key value) other = if key = other then some value else get? map other := by
  induction map with
  | nil => simp [put, get?]
  | cons pair rest ih =>
      obtain ⟨k, old⟩ := pair
      by_cases same : k = key
      · subst same
        by_cases found : k = other <;> simp [put, get?, found]
      · by_cases found : k = other
        · subst found
          have differs : ¬ key = k := fun h => same h.symm
          simp [put, get?, same, differs]
        · simp [put, get?, same, found, ih]

end Assoc

end TokenSearch.Data
