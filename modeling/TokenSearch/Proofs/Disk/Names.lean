import TokenSearch.Discovery
import TokenSearch.Proofs.Text.RawText

namespace TokenSearch

/-! Names of files as they are told. A path below a root is told by its names with slashes between
them, and these can be read off again. -/

open Text

namespace Path

theorem pieces_plain (current : List UInt32) {points : List UInt32} (plain : slash ∉ points) :
    pieces current points = [current.reverse ++ points] := by
  induction points generalizing current with
  | nil => simp [pieces]
  | cons point rest ih =>
      rw [List.mem_cons, not_or] at plain
      rw [pieces, if_neg (Ne.symm plain.1), ih (point :: current) plain.2]
      simp

theorem pieces_append_slash (current : List UInt32) {points : List UInt32} (plain : slash ∉ points)
    (rest : List UInt32) :
    pieces current (points ++ slash :: rest) = (current.reverse ++ points) :: pieces [] rest := by
  induction points generalizing current with
  | nil => simp [pieces]
  | cons point others ih =>
      rw [List.mem_cons, not_or] at plain
      rw [List.cons_append, pieces, if_neg (Ne.symm plain.1), ih (point :: current) plain.2]
      simp

theorem pieces_intersperse {parts : List (List UInt32)} (filled : parts ≠ [])
    (plain : ∀ part ∈ parts, slash ∉ part) :
    pieces [] (parts.intersperse [slash]).flatten = parts := by
  induction parts with
  | nil => contradiction
  | cons first rest ih =>
      have here := plain first List.mem_cons_self
      cases rest with
      | nil => simpa using pieces_plain [] here
      | cons second others =>
          have later := ih (by simp) (fun part member => plain part (List.mem_cons_of_mem _ member))
          rw [List.intersperse_cons_cons, List.flatten_cons, List.flatten_cons, List.singleton_append,
            pieces_append_slash [] here, later]
          rfl

/-- A name that can stand between two slashes. -/
structure IsPart (name : RawText) : Prop where
  named : isName name = true
  plain : slash ∉ name.points

/-- A name that an entry of a directory can have. -/
structure IsEntry (name : RawText) : Prop extends IsPart name where
  down : name ≠ above

theorem IsPart.filled {name : RawText} (part : IsPart name) : name.points ≠ [] := by
  intro empty
  have named := part.named
  simp [isName, RawText.isEmpty, empty] at named

theorem IsPart.piecesOf_eq {name : RawText} (part : IsPart name) : piecesOf name = [name] := by
  rw [piecesOf, pieces_plain [] part.plain]
  rfl

theorem head_intersperse {parts : List RawText} (each : ∀ part ∈ parts, IsPart part) :
    ((parts.map RawText.points).intersperse [slash]).flatten.head? ≠ some slash := by
  cases parts with
  | nil => simp
  | cons first rest =>
      have part := each first List.mem_cons_self
      have named := part.named
      have plain := part.plain
      cases points : first.points with
      | nil => simp [isName, RawText.isEmpty, points] at named
      | cons point others =>
          rw [points, List.mem_cons, not_or] at plain
          cases rest <;> simpa [points] using Ne.symm plain.1

end Path

/-- A link to a name is one step. -/
theorem Disk.linkSteps_of_isPart {name : RawText} (part : Path.IsPart name) :
    Disk.linkSteps name = [name] := by
  have filled : name.isEmpty = false := by simpa [RawText.isEmpty] using part.filled
  simp [linkSteps, part.piecesOf_eq, filled]

/-- How many slashes stand at the start. -/
def Anchor.slashes : Anchor → Nat
  | .relative => 0
  | .slash => 1
  | .doubleSlash => 2

namespace Path

theorem points_anchor (anchor : Anchor) :
    (RawText.ofString anchor.text).points = List.replicate anchor.slashes slash := by
  cases anchor <;> rfl

theorem anchorOf_slashes (anchor : Anchor) {points : List UInt32}
    (plain : points.head? ≠ some slash) :
    anchorOf (List.replicate anchor.slashes slash ++ points) = anchor := by
  have ended : points.takeWhile (· = slash) = [] := by
    cases points with
    | nil => rfl
    | cons point rest =>
        have differs : point ≠ slash := by simpa using plain
        simp [differs]
  rw [anchorOf, List.takeWhile_append_of_pos (by simp), ended]
  cases anchor <;> rfl

theorem pieces_slashes (count : Nat) (points : List UInt32) :
    pieces [] (List.replicate count slash ++ points) =
      List.replicate count [] ++ pieces [] points := by
  induction count with
  | zero => rfl
  | succ count ih =>
      rw [List.replicate_succ, List.cons_append, pieces, if_pos rfl, ih]
      rfl

/-- The names with slashes between them give the same names, whatever slashes stand in front. -/
theorem names_slashes (count : Nat) {parts : List RawText}
    (each : ∀ part ∈ parts, IsPart part) :
    ((pieces [] (List.replicate count slash ++
      ((parts.map RawText.points).intersperse [slash]).flatten)).map RawText.mk).filter isName =
      parts := by
  have front : ((List.replicate count []).map RawText.mk).filter isName = [] := by
    simp [isName, RawText.isEmpty]
  rw [pieces_slashes, List.map_append, List.filter_append, front, List.nil_append]
  cases parts with
  | nil => rfl
  | cons first rest =>
      have split : pieces [] (((first :: rest).map RawText.points).intersperse [slash]).flatten =
          (first :: rest).map RawText.points := by
        refine pieces_intersperse (by simp) (fun part member => ?_)
        obtain ⟨name, inside, rfl⟩ := List.mem_map.mp member
        exact (each name inside).plain
      rw [split, List.map_map]
      exact (congrArg (List.filter isName) (List.map_id _)).trans
        (List.filter_eq_self.mpr (fun part member => (each part member).named))

/-- The text of a path that has a start or a name. -/
theorem points_text {anchor : Anchor} {parts : List RawText} (each : ∀ part ∈ parts, IsPart part)
    (told : ¬ (anchor = .relative ∧ parts = [])) :
    (text ⟨anchor, parts⟩).points = List.replicate anchor.slashes slash ++
      ((parts.map RawText.points).intersperse [slash]).flatten := by
  have whole : (RawText.ofString anchor.text ++ RawText.intercalate "/" parts : RawText).points =
      List.replicate anchor.slashes slash ++
        ((parts.map RawText.points).intersperse [slash]).flatten :=
    congrArg (· ++ _) (points_anchor anchor)
  have filled : (RawText.ofString anchor.text ++
      RawText.intercalate "/" parts : RawText).isEmpty = false := by
    rw [RawText.isEmpty, whole]
    cases anchor with
    | slash | doubleSlash => rfl
    | relative =>
        cases parts with
        | nil => exact absurd ⟨rfl, rfl⟩ told
        | cons first rest =>
            have named := (each first List.mem_cons_self).named
            cases held : first.points with
            | nil => simp [isName, RawText.isEmpty, held] at named
            | cons point others => cases rest <;> simp [Anchor.slashes, held]
  unfold text
  simp only [filled, Bool.false_eq_true, if_false]
  exact whole

theorem text_singleton {name : RawText} (part : IsPart name) : text ⟨.relative, [name]⟩ = name := by
  have alone : ¬ (Anchor.relative = .relative ∧ [name] = []) := by simp
  have points : (text ⟨.relative, [name]⟩).points = name.points := by
    simpa [Anchor.slashes] using points_text (List.forall_mem_singleton.mpr part) alone
  exact congrArg RawText.mk points

/-- A path is read off its text. -/
theorem ofText_text_self (path : Path) (each : ∀ part ∈ path.parts, IsPart part) :
    ofText path.text = path := by
  obtain ⟨anchor, parts⟩ := path
  by_cases bare : anchor = .relative ∧ parts = []
  · obtain ⟨rfl, rfl⟩ := bare
    rfl
  · rw [ofText, piecesOf, points_text each bare, anchorOf_slashes anchor (head_intersperse each),
      names_slashes _ each]

/-- A relative path is read off its text. -/
theorem ofText_text {parts : List RawText} (each : ∀ part ∈ parts, IsPart part) :
    ofText (text ⟨.relative, parts⟩) = ⟨.relative, parts⟩ :=
  ofText_text_self ⟨.relative, parts⟩ each

/-- A text that names a relative path names no other. -/
theorem parts_of_text {parts others : List RawText} (each : ∀ part ∈ parts, IsPart part)
    (otherEach : ∀ part ∈ others, IsPart part)
    (same : text ⟨.relative, parts⟩ = text ⟨.relative, others⟩) : parts = others := by
  have read := congrArg ofText same
  rw [ofText_text each, ofText_text otherEach] at read
  exact congrArg Path.parts read

theorem mem_points_text {path : Path} {point : UInt32} (member : point ∈ path.text.points) :
    (∃ part ∈ path.parts, point ∈ part.points) ∨ point = slash ∨ point = dot := by
  have between (parts : List RawText)
      (inside : point ∈ ((parts.map RawText.points).intersperse [slash]).flatten) :
      (∃ part ∈ parts, point ∈ part.points) ∨ point = slash := by
    induction parts with
    | nil => contradiction
    | cons first rest ih =>
        cases rest with
        | nil => exact .inl ⟨first, List.mem_cons_self, by simpa using inside⟩
        | cons second others =>
            simp only [List.map_cons, List.intersperse_cons_cons, List.flatten_cons,
              List.mem_append, List.mem_singleton] at inside ih
            rcases inside with here | mark | later
            · exact .inl ⟨first, List.mem_cons_self, here⟩
            · exact .inr mark
            · rcases ih later with ⟨part, known, held⟩ | mark
              · exact .inl ⟨part, List.mem_cons_of_mem _ known, held⟩
              · exact .inr mark
  unfold text at member
  simp only at member
  split at member
  · exact .inr (.inr (List.mem_singleton.mp member))
  · rcases List.mem_append.mp member with front | behind
    · rw [points_anchor] at front
      exact .inr (.inl (List.mem_replicate.mp front).2)
    · rcases between path.parts behind with held | mark
      · exact .inl held
      · exact .inr (.inl mark)

end Path

/-- A relative path whose text is known is told without loss, and its name is in normal form. -/
theorem Path.normalizePath_told {parts : List RawText} (each : ∀ part ∈ parts, Path.IsPart part)
    {known : String} (told : Path.text ⟨.relative, parts⟩ = .ofString known) :
    normalizePath known = known := by
  rw [normalizePath, Path.ofString, ← told, Path.ofText_text each, Path.toString, told,
    RawText.toStringLossy_ofString]

end TokenSearch
