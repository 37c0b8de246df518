import TokenSearch.Artifact.Shelf
import TokenSearch.Proofs.Data.Sort
import TokenSearch.Proofs.Table.Cell

namespace TokenSearch.Artifact

/-! A shelf hands out the same windows as the table that it was made from, gone through row by
row. -/

theorem TokenRow.key?_eq_some {row : TokenRow} {file place : Int} :
    row.key? = some (file, place) ↔ row.file = .integer file ∧ row.place = .integer place := by
  cases first : row.file <;> cases second : row.place <;>
    simp [TokenRow.key?, Cell.integer?, first, second]

/-- Rows that all found a free place have keys, no two of them the same. -/
theorem Places.distinct_of_foldlM {rows : List TokenRow} {places after : Places}
    (placed : rows.foldlM Places.put? places = some after) :
    (∀ row ∈ rows, ∃ key, row.key? = some key ∧ places[key]? = none) ∧
      rows.Pairwise (fun a b => a.key? ≠ b.key?) := by
  induction rows generalizing places with
  | nil => simp
  | cons row rest ih =>
      rw [List.foldlM_cons] at placed
      cases first : places.put? row with
      | none => simp [first] at placed
      | some between =>
          obtain ⟨keyed, apart⟩ := ih (by simpa [first] using placed)
          have own : ∃ key, row.key? = some key ∧ places[key]? = none := by
            unfold Places.put? at first
            cases found : row.key? with
            | none => simp [found] at first
            | some key =>
                refine ⟨key, rfl, ?_⟩
                cases held : places[key]? with
                | none => rfl
                | some _ =>
                    have taken : places.contains key = true := by
                      rw [Std.HashMap.contains_eq_isSome_getElem?, held, Option.isSome_some]
                    simp only [found, Option.bind_eq_bind, Option.bind_some, taken, if_true,
                      reduceCtorEq] at first
          refine ⟨fun other member => ?_, .cons (fun other member => ?_) apart⟩
          · rcases List.mem_cons.mp member with rfl | later
            · exact own
            · obtain ⟨key, named, free⟩ := keyed other later
              rw [Places.getElem?_of_put? key first, Option.or_eq_none_iff] at free
              exact ⟨key, named, free.1⟩
          · obtain ⟨key, named, free⟩ := keyed other member
            rw [Places.getElem?_of_put? key first, Option.or_eq_none_iff] at free
            intro same
            simp [same, named] at free

namespace Shelf

def placeOf (row : TokenRow) : Int := row.place.integer?.getD 0

theorem mem_windowRows_filter {row : TokenRow} {file place other first stop : Int}
    (named : row.key? = some (other, place)) :
    (row.file.agrees (.integer file) && (Cell.integer first).precedes row.place &&
      !(Cell.integer stop).precedes row.place) = true ↔
      other = file ∧ first ≤ place ∧ place < stop := by
  obtain ⟨isFile, isPlace⟩ := TokenRow.key?_eq_some.mp named
  rw [isFile, isPlace]
  simp only [Cell.agrees_integer, Cell.precedes_integer, Bool.and_eq_true, decide_eq_true_eq,
    Bool.not_eq_true', decide_eq_false_iff_not]
  omega

theorem placeOf_of_key? {row : TokenRow} {file place : Int} (named : row.key? = some (file, place)) :
    placeOf row = place := by
  simp [placeOf, (TokenRow.key?_eq_some.mp named).2, Cell.integer?]

theorem find?_of_apart {rows : List TokenRow} (apart : rows.Pairwise (fun a b => a.key? ≠ b.key?))
    {key : Int × Int} {row : TokenRow} (member : row ∈ rows) (named : row.key? = some key) :
    rows.find? (fun row => row.key? = some key) = some row := by
  induction apart with
  | nil => contradiction
  | @cons first rest differs _ ih =>
      rcases List.mem_cons.mp member with rfl | later
      · simp [named]
      · have other : ¬ first.key? = some key := fun same =>
          differs row later (same.trans named.symm)
        rw [List.find?_cons_of_neg (by simpa using other)]
        exact ih later

/-- The row that is looked up at a place is the one that names the place. -/
theorem lookup_iff {rows : List TokenRow} {places : Places}
    (placed : rows.foldlM Places.put? ∅ = some places) {key : Int × Int} {row : TokenRow} :
    places[key]? = some row ↔ row ∈ rows ∧ row.key? = some key := by
  rw [Places.getElem?_of_foldlM key placed, Std.HashMap.getElem?_empty, Option.none_or]
  constructor
  · intro found
    exact ⟨List.mem_of_find?_eq_some found, by simpa using List.find?_some found⟩
  · rintro ⟨member, named⟩
    exact find?_of_apart (Places.distinct_of_foldlM placed).2 member named

theorem lookups_ascend {rows : List TokenRow} {places : Places}
    (placed : rows.foldlM Places.put? ∅ = some places) (file first : Int) (count : Nat) :
    ((List.range count).filterMap (fun (place : Nat) => places[(file, first + place)]?)).Pairwise
      (fun a b => placeOf a < placeOf b) := by
  refine List.pairwise_lt_range.filterMap _ (fun m n less a first_ b second => ?_)
  rw [placeOf_of_key? ((lookup_iff placed).mp first_).2,
    placeOf_of_key? ((lookup_iff placed).mp second).2]
  omega

theorem mem_lookups {rows : List TokenRow} {places : Places}
    (placed : rows.foldlM Places.put? ∅ = some places) {file first stop : Int} {row : TokenRow} :
    row ∈ (List.range (stop - first).toNat).filterMap
        (fun (place : Nat) => places[(file, first + place)]?) ↔
      row ∈ rows ∧ ∃ place, row.key? = some (file, place) ∧ first ≤ place ∧ place < stop := by
  rw [List.mem_filterMap]
  constructor
  · rintro ⟨offset, inside, found⟩
    obtain ⟨member, named⟩ := (lookup_iff placed).mp found
    rw [List.mem_range] at inside
    exact ⟨member, first + offset, named, by omega, by omega⟩
  · rintro ⟨member, place, named, lower, upper⟩
    refine ⟨(place - first).toNat, List.mem_range.mpr (by omega), (lookup_iff placed).mpr ⟨member, ?_⟩⟩
    rw [named]
    congr 2
    omega

/-- Looking up place by place gives what going through the rows gives. -/
theorem window_ofRows (rows : List TokenRow) (file start stop : Int) :
    (ofRows rows).window file start stop = windowRows rows file start stop := by
  cases placed : rows.foldlM Places.put? ∅ with
  | none => simp [window, ofRows, placed]
  | some places =>
      by_cases narrow : stop - max start 0 ≤ rows.length
      · obtain ⟨keyed, apart⟩ := Places.distinct_of_foldlM placed
        simp only [window, ofRows, placed, narrow, if_true, windowRows]
        generalize max start 0 = first
        symm
        refine Data.mergeSort_eq_of_perm placeOf ?_ (lookups_ascend placed file first _) ?_
        · intro a inA b inB
          obtain ⟨⟨_, m⟩, namedA, _⟩ := keyed a (List.mem_filter.mp inA).1
          obtain ⟨⟨_, n⟩, namedB, _⟩ := keyed b (List.mem_filter.mp inB).1
          rw [placeOf_of_key? namedA, placeOf_of_key? namedB, (TokenRow.key?_eq_some.mp namedA).2,
            (TokenRow.key?_eq_some.mp namedB).2, Cell.precedes_integer]
        · have unlike : rows.Nodup := apart.imp (fun {a b} differs same => differs (by rw [same]))
          refine (List.perm_ext_iff_of_nodup ?_ (unlike.filter _)).mpr (fun row => ?_)
          · exact (lookups_ascend placed file first _).imp
              (fun {a b} less same => absurd less (by rw [same]; exact Int.lt_irrefl _))
          · rw [mem_lookups placed, List.mem_filter]
            refine and_congr_right (fun member => ?_)
            obtain ⟨⟨other, place⟩, named, _⟩ := keyed row member
            rw [mem_windowRows_filter named]
            constructor
            · rintro ⟨known, same, lower, upper⟩
              cases named.symm.trans same
              exact ⟨rfl, lower, upper⟩
            · rintro ⟨rfl, lower, upper⟩
              exact ⟨place, named, lower, upper⟩
      · simp [window, ofRows, placed, narrow]

end Shelf

end TokenSearch.Artifact
