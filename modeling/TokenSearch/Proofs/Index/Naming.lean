import TokenSearch.Proofs.Disk.Names
import TokenSearch.Proofs.Index.Canonical

namespace TokenSearch

/-! Paths as the names of sources. The normal form of a path is its own normal form, and two paths
have one normal form just if they start alike and have the same components; by these names sources
are put in order, or refused. -/

open Data Text

namespace Path

/-- The normal form of a text that is taken as a path. -/
def normal (text : RawText) : RawText := (ofText text).text

/-- How many slashes a path starts from; three or more count as one. -/
def rootOf (text : RawText) : Nat :=
  let count := (text.points.takeWhile (· = slash)).length
  if 2 < count then 1 else count

/-- What stands between the slashes of a path, without empty components and single dots. -/
def componentsOf (text : RawText) : List (List UInt32) :=
  (text.points.splitOn slash).filter (fun piece => piece ≠ [] ∧ piece ≠ [dot])

/-- Texts that are the same path. -/
structure Alike (a b : RawText) : Prop where
  root : rootOf a = rootOf b
  components : componentsOf a = componentsOf b

theorem pieces_eq_splitOn (current points : List UInt32) :
    pieces current points = (points.splitOn slash).modifyHead (current.reverse ++ ·) := by
  induction points generalizing current with
  | nil => simp [pieces]
  | cons point rest ih =>
      obtain ⟨piece, others, split⟩ :=
        List.exists_cons_of_ne_nil (List.splitOn_ne_nil slash rest)
      rw [pieces, List.splitOn_cons_eq_if_modifyHead, ih, ih, split]
      by_cases mark : point = slash <;> simp [mark]

theorem piecesOf_eq (text : RawText) :
    piecesOf text = (text.points.splitOn slash).map RawText.mk := by
  obtain ⟨piece, others, split⟩ :=
    List.exists_cons_of_ne_nil (List.splitOn_ne_nil slash text.points)
  rw [piecesOf, pieces_eq_splitOn, split]
  rfl

theorem isName_mk (piece : List UInt32) :
    isName ⟨piece⟩ = decide (piece ≠ [] ∧ piece ≠ [dot]) := by
  have spelled : here = ⟨[dot]⟩ := rfl
  rw [isName, spelled, Bool.eq_iff_iff]
  simp [RawText.isEmpty]

theorem parts_ofText (text : RawText) : (ofText text).parts = (componentsOf text).map RawText.mk := by
  have same : isName ∘ RawText.mk = fun piece => decide (piece ≠ [] ∧ piece ≠ [dot]) :=
    funext isName_mk
  change (piecesOf text).filter isName = _
  rw [piecesOf_eq, List.filter_map, same]
  rfl

/-- The pieces between slashes hold no slash, and nothing that the text does not hold. -/
theorem of_mem_pieces {current points piece : List UInt32} (member : piece ∈ pieces current points)
    (plain : slash ∉ current) :
    slash ∉ piece ∧ ∀ point ∈ piece, point ∈ current ∨ point ∈ points := by
  induction points generalizing current with
  | nil =>
      rw [List.mem_singleton.mp member]
      exact ⟨by simpa using plain, fun point inside => .inl (by simpa using inside)⟩
  | cons next rest ih =>
      rw [pieces] at member
      split at member
      · rcases List.mem_cons.mp member with rfl | later
        · exact ⟨by simpa using plain, fun point inside => .inl (by simpa using inside)⟩
        · obtain ⟨free, held⟩ := ih later List.not_mem_nil
          refine ⟨free, fun point inside => .inr ?_⟩
          exact List.mem_cons_of_mem _ ((held point inside).resolve_left List.not_mem_nil)
      · rename_i other
        obtain ⟨free, held⟩ := ih member (by simpa [eq_comm] using ⟨other, plain⟩)
        refine ⟨free, fun point inside => ?_⟩
        rcases held point inside with before | behind
        · rcases List.mem_cons.mp before with rfl | before
          · exact .inr List.mem_cons_self
          · exact .inl before
        · exact .inr (List.mem_cons_of_mem _ behind)

theorem isPart_of_ofText {text part : RawText} (member : part ∈ (ofText text).parts) :
    IsPart part := by
  obtain ⟨inside, named⟩ := List.mem_filter.mp member
  obtain ⟨piece, among, rfl⟩ := List.mem_map.mp inside
  exact ⟨named, (of_mem_pieces among List.not_mem_nil).1⟩

theorem mem_of_part {text part : RawText} (member : part ∈ (ofText text).parts) :
    ∀ point ∈ part.points, point ∈ text.points := by
  obtain ⟨inside, _⟩ := List.mem_filter.mp member
  obtain ⟨piece, among, rfl⟩ := List.mem_map.mp inside
  intro point held
  exact ((of_mem_pieces among List.not_mem_nil).2 point held).resolve_left List.not_mem_nil

/-- A text and its normal form are the same path. -/
theorem ofText_normal (text : RawText) : ofText (normal text) = ofText text :=
  ofText_text_self (ofText text) (fun _ member => isPart_of_ofText member)

theorem normal_normal (text : RawText) : normal (normal text) = normal text :=
  congrArg Path.text (ofText_normal text)

theorem rootOf_le (text : RawText) : rootOf text ≤ 2 := by
  rw [rootOf]
  split <;> omega

theorem anchorOf_points (text : RawText) :
    anchorOf text.points =
      if rootOf text = 0 then .relative else if rootOf text = 2 then .doubleSlash else .slash := by
  rw [anchorOf, rootOf]
  rcases (text.points.takeWhile (· = slash)).length with _ | _ | _ | count
  · rfl
  · rfl
  · rfl
  · simp

theorem anchorOf_eq_iff {a b : RawText} :
    anchorOf a.points = anchorOf b.points ↔ rootOf a = rootOf b := by
  have few := rootOf_le a
  have less := rootOf_le b
  constructor
  · rw [anchorOf_points, anchorOf_points]
    grind
  · intro root
    rw [anchorOf_points, anchorOf_points, root]

theorem ofText_eq_iff {a b : RawText} : ofText a = ofText b ↔ Alike a b := by
  have injective : Function.Injective RawText.mk := fun _ _ same => congrArg RawText.points same
  have apart : ofText a = ofText b ↔
      anchorOf a.points = anchorOf b.points ∧ (ofText a).parts = (ofText b).parts :=
    Path.mk.injEq .. ▸ Iff.rfl
  rw [apart, anchorOf_eq_iff, parts_ofText, parts_ofText, injective.list_map.eq_iff]
  exact ⟨fun ⟨root, components⟩ => ⟨root, components⟩, fun ⟨root, components⟩ => ⟨root, components⟩⟩

theorem normal_eq_iff {a b : RawText} : normal a = normal b ↔ Alike a b := by
  rw [← ofText_eq_iff]
  constructor
  · intro same
    rw [← ofText_normal a, same, ofText_normal]
  · exact congrArg Path.text

end Path

/-- The normal form of a string is a string. -/
theorem ofString_normalizePath (text : String) :
    RawText.ofString (normalizePath text) = Path.normal text := by
  have chars : ∃ known, Path.normal text = .ofString known := by
    refine RawText.exists_ofString_iff.mpr (fun point member => ?_)
    rcases Path.mem_points_text member with ⟨part, among, held⟩ | rfl | rfl
    · exact RawText.exists_ofString_iff.mp ⟨text, rfl⟩ point (Path.mem_of_part among point held)
    · exact ⟨'/', rfl⟩
    · exact ⟨'.', rfl⟩
  obtain ⟨known, same⟩ := chars
  change RawText.ofString (Path.normal text).toStringLossy = _
  rw [same, RawText.toStringLossy_ofString]

theorem ofString_injective : Function.Injective RawText.ofString := by
  intro a b same
  rw [← RawText.toStringLossy_ofString a, same, RawText.toStringLossy_ofString]

theorem normalizePath_eq_iff {a b : String} :
    normalizePath a = normalizePath b ↔ Path.Alike a b := by
  rw [← ofString_injective.eq_iff, ofString_normalizePath, ofString_normalizePath,
    Path.normal_eq_iff]

theorem normalizePath_normalizePath (text : String) :
    normalizePath (normalizePath text) = normalizePath text := by
  apply ofString_injective
  rw [ofString_normalizePath, ofString_normalizePath, Path.normal_normal]

/-- Two of the sources have the same path. -/
def Repeats (sources : List SourceFile) : Prop :=
  ∃ (i j : Nat) (a b : SourceFile), i < j ∧ sources[i]? = some a ∧ sources[j]? = some b ∧
    Path.Alike a.path b.path

theorem repeats_iff {sources : List SourceFile} :
    Repeats sources ↔ ¬ (normalPaths sources).Nodup := by
  rw [List.nodup_iff_getElem?_ne_getElem?]
  push Not
  constructor
  · rintro ⟨i, j, a, b, before, first, second, alike⟩
    have inside := (List.getElem?_eq_some_iff.mp second).1
    refine ⟨i, j, before, by simpa [normalPaths] using inside, ?_⟩
    rw [normalPaths, List.getElem?_map, List.getElem?_map, first, second]
    exact congrArg some (normalizePath_eq_iff.mpr alike)
  · rintro ⟨i, j, before, inside, same⟩
    have inside : j < sources.length := by simpa [normalPaths] using inside
    have first := List.getElem?_eq_getElem (Nat.lt_trans before inside)
    have second := List.getElem?_eq_getElem inside
    rw [normalPaths, List.getElem?_map, List.getElem?_map, first, second] at same
    exact ⟨i, j, _, _, before, first, second, normalizePath_eq_iff.mp (Option.some.inj same)⟩

namespace Build

variable {sources ordered : List SourceFile}

theorem distinct_of_order (sorted : order sources = .ok ordered) : (normalPaths sources).Nodup := by
  obtain ⟨_, checked, _⟩ := bind_eq_ok.mp sorted
  have distinct := (distinct_of_checkDistinct checked).1
  rwa [List.map_map] at distinct

theorem perm_of_order (sorted : order sources = .ok ordered) : ordered.Perm
    (sources.map (fun source => { source with path := normalizePath source.path })) := by
  obtain ⟨_, _, sorted⟩ := bind_eq_ok.mp sorted
  cases sorted
  exact List.mergeSort_perm _ _

end Build

/-- The normal form of a path is canonical: it is its own normal form, and two texts have one normal
form if and only if they have the same root and the same components. So sources are refused just if
two of them have the same path, and otherwise each stands once in the order of the normal forms. -/
theorem paths_canonical :
    (∀ text : RawText, Path.normal (Path.normal text) = Path.normal text) ∧
    (∀ a b : RawText, Path.normal a = Path.normal b ↔ Path.Alike a b) ∧
    (∀ text : String, RawText.ofString (normalizePath text) = Path.normal text ∧
      normalizePath (normalizePath text) = normalizePath text) ∧
    (∀ a b : String, normalizePath a = normalizePath b ↔ Path.Alike a b) ∧
    ∀ sources : List SourceFile,
      ((∃ path, Build.order sources = .error (.duplicatePath path) ∧
        1 < (normalPaths sources).count path) ↔ Repeats sources) ∧
      ((∃ ordered, Build.order sources = .ok ordered ∧
        ordered.Perm
          (sources.map (fun source => { source with path := normalizePath source.path })) ∧
        (ordered.map SourceFile.path).Pairwise (· < ·)) ↔ ¬ Repeats sources) := by
  refine ⟨Path.normal_normal, fun _ _ => Path.normal_eq_iff,
    fun text => ⟨ofString_normalizePath text, normalizePath_normalizePath text⟩,
    fun _ _ => normalizePath_eq_iff, fun sources => ⟨?_, ?_⟩⟩
  · rw [repeats_iff]
    constructor
    · rintro ⟨path, _, twice⟩ distinct
      exact absurd (List.nodup_iff_count_le_one.mp distinct path) (Nat.not_le.mpr twice)
    · exact Build.order_refuses
  · rw [repeats_iff, not_not]
    constructor
    · rintro ⟨ordered, sorted, _⟩
      exact Build.distinct_of_order sorted
    · intro distinct
      obtain ⟨ordered, sorted⟩ := Build.order_of_distinct distinct
      exact ⟨ordered, sorted, Build.perm_of_order sorted, Build.ascending_order sorted⟩

end TokenSearch
