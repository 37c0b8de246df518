import TokenSearch.Proofs.Disk.Resolve
import TokenSearch.Proofs.Disk.Spare

namespace TokenSearch.Disk

/-! A disk to which one file came, and directories. Paths that did not lead to the place of the file,
and did lead somewhere, lead where they led. -/

open Entries Text

/-- A file came to the place `mark` or took the place of one there, and nothing else came but
directories. -/
structure Grows (mark : List RawText) (disk after : Disk) : Prop where
  spares : Spares (mark <+: ·) disk after
  slot : IsLeaf (disk.root.find? mark)
  filed : IsLeaf (after.root.find? mark)
  links : after.root.linkCount = disk.root.linkCount

namespace Entries

/-- There is nothing below a place at which there is no directory. -/
theorem find?_below {root : Entries} {place rest : List RawText} (leaf : IsLeaf (root.find? place))
    (filled : rest ≠ []) : root.find? (place ++ rest) = none := by
  cases found : root.find? (place ++ rest) with
  | none => rfl
  | some node =>
      obtain ⟨below, dir⟩ := isDir_of_find? found filled
      exact absurd dir (leaf.ne_dir below)

end Entries

theorem Spares.link_iff {disk after : Disk} (spares : Spares nowhere disk after)
    (place : List RawText) (target : RawText) :
    after.root.find? place = some (.link target) ↔ disk.root.find? place = some (.link target) := by
  rw [← kind_eq_link, ← kind_eq_link]
  rcases spares.places place id with same | ⟨free, dir⟩
  · rw [same]
  · simp [free, dir]

namespace Grows

variable {mark : List RawText} {disk made after : Disk} {place : List RawText} {node : Node}

/-- Directories may have been made before. -/
theorem of_made (spares : Spares nowhere disk made)
    (count : made.root.linkCount = disk.root.linkCount) (grows : Grows mark made after) :
    Grows mark disk after where
  spares := spares.trans grows.spares
  slot := by
    rcases spares.places mark id with same | ⟨free, _⟩
    · rcases grows.slot with none_ | ⟨serial, file⟩
      · rw [none_, Option.map_none, eq_comm, Option.map_eq_none_iff] at same
        exact same ▸ .none
      · rw [file] at same
        cases held : disk.root.find? mark with
        | none => exact .none
        | some node =>
            rw [held] at same
            cases node <;> cases same
            exact .file serial
    · exact free ▸ .none
  filed := grows.filed
  links := grows.links.trans count

theorem kind_eq (grows : Grows mark disk after) (aside : place ≠ mark) :
    (after.root.find? place).map Node.kind = (disk.root.find? place).map Node.kind ∨
      disk.root.find? place = none ∧ (after.root.find? place).map Node.kind = some .dir := by
  by_cases below : mark <+: place
  · obtain ⟨rest, rfl⟩ := below
    have filled : rest ≠ [] := by
      rintro rfl
      exact aside (List.append_nil mark)
    exact .inl (by rw [find?_below grows.slot filled, find?_below grows.filed filled])
  · exact grows.spares.places place below

/-- What was there is still there. -/
theorem kept (grows : Grows mark disk after) (aside : place ≠ mark)
    (held : disk.root.find? place = some node) :
    (after.root.find? place).map Node.kind = some node.kind := by
  rcases grows.kind_eq aside with same | ⟨free, _⟩
  · rw [same, held, Option.map_some]
  · cases held.symm.trans free

/-- A file or a link that is there was there before. -/
theorem old (grows : Grows mark disk after) (aside : place ≠ mark)
    (held : after.root.find? place = some node) (isEnd : node.IsEnd) :
    (disk.root.find? place).map Node.kind = some node.kind := by
  rcases grows.kind_eq aside with same | ⟨_, dir⟩
  · rw [← same, held, Option.map_some]
  · obtain ⟨below, dir⟩ := kind_eq_dir.mp dir
    cases held.symm.trans dir
    exact absurd rfl (isEnd below)

theorem ne_of_not_leaf (grows : Grows mark disk after) (holds : ¬ IsLeaf (disk.root.find? place)) :
    place ≠ mark := by
  rintro rfl
  exact holds grows.slot

/-- Directories and links are as they were. -/
theorem still (grows : Grows mark disk after) (place : List RawText)
    (holds : ¬ IsLeaf (disk.root.find? place)) :
    (after.root.find? place).map Node.kind = (disk.root.find? place).map Node.kind := by
  cases held : disk.root.find? place with
  | none => exact absurd (held ▸ .none) holds
  | some node => exact grows.kept (grows.ne_of_not_leaf holds) held

theorem link_iff (grows : Grows mark disk after) (place : List RawText) (target : RawText) :
    after.root.find? place = some (.link target) ↔ disk.root.find? place = some (.link target) := by
  constructor
  · intro held
    have aside : place ≠ mark := by
      rintro rfl
      exact grows.filed.ne_link target held
    exact kind_eq_link.mp (grows.old aside held (by simp [Node.IsEnd]))
  · intro held
    have aside : place ≠ mark := by
      rintro rfl
      exact grows.slot.ne_link target held
    exact kind_eq_link.mp (grows.kept aside held)

theorem origin_eq (grows : Grows mark disk after) (path : Path) :
    after.origin path = disk.origin path := by
  rw [Disk.origin, Disk.origin, grows.spares.current]

/-- Every path is resolved to the place to which it was resolved. -/
theorem resolve_eq (grows : Grows mark disk after) (path : Path) :
    after.resolve path = disk.resolve path :=
  resolve_congr grows.spares.current grows.links grows.link_iff path

theorem home (grows : Grows mark disk after) {path : Path} {home : List RawText} {entries : Entries}
    (at_ : disk.Home path home entries) : ∃ others, after.Home path home others := by
  obtain ⟨links, entered⟩ := at_.entered
  have dir := grows.still home (by rw [at_.found]; simp [IsLeaf])
  rw [at_.found] at dir
  obtain ⟨others, found⟩ := kind_eq_dir.mp dir
  exact ⟨others, ⟨links, grows.origin_eq path ▸ enter_congr grows.still entered⟩, found⟩

/-- A walk that led somewhere else than to the place of the file leads there again. -/
theorem walk (grows : Grows mark disk after) {links : Nat} {here rest : List RawText}
    (walked : Disk.walk disk.root .target links here rest = .ok ⟨place, some node⟩)
    (aside : place ≠ mark) :
    ∃ next, Disk.walk after.root .target links here rest = .ok ⟨place, some next⟩ ∧
      next.kind = node.kind := by
  have free {rest : List RawText} : Aim.target ≠ .writing ∨ rest ≠ [lastSlash] := .inl (by decide)
  have there (held : disk.root.find? place = some node) :
      ∃ next, after.root.find? place = some next ∧ next.kind = node.kind := by
    simpa using grows.kept aside held
  fun_induction Disk.walk disk.root .target links here rest with
  | case1 links here =>
      rw [Except.ok.injEq, Place.mk.injEq] at walked
      obtain ⟨rfl, held⟩ := walked
      obtain ⟨next, found, same⟩ := there held
      exact ⟨next, by rw [walk_nil, found], same⟩
  | case2 links here name rest dot ih => rw [walk_dot dot]; exact ih walked
  | case3 links here rest _ ih => rw [walk_above]; exact ih walked
  | case8 links here name rest named down _ short there_ serial held last =>
      rw [Except.ok.injEq, Place.mk.injEq, Option.some.injEq] at walked
      obtain ⟨rfl, rfl⟩ := walked
      obtain ⟨next, found, same⟩ := there held
      rw [walk_name named down free short, found]
      cases next <;> cases same
      exact ⟨.file serial, by simp only [last, if_true]; rfl, rfl⟩
  | case10 links here name rest named down _ short there_ inner held ih =>
      have dir := grows.still there_ (by rw [held]; simp [IsLeaf])
      rw [held] at dir
      obtain ⟨inner', held'⟩ := kind_eq_dir.mp dir
      rw [walk_name named down free short, held']
      exact ih walked
  | case13 here name rest named down _ short there_ target held notEntry links ih =>
      rw [walk_name named down free short, (grows.link_iff _ _).mpr held]
      simp only [reduceCtorEq, decide_false, Bool.and_false, Bool.false_eq_true, if_false]
      exact ih walked
  | case11 _ _ _ _ _ _ _ _ _ _ _ last => simp at last
  | case4 | case5 | case6 | case7 | case9 | case12 => simp at walked

theorem locate (grows : Grows mark disk after) {path : Path}
    (located : disk.locate path = .ok ⟨place, some node⟩) (aside : place ≠ mark) :
    ∃ next, after.locate path = .ok ⟨place, some next⟩ ∧ next.kind = node.kind := by
  obtain ⟨next, walked, same⟩ := grows.walk (walk_of_locateBy located) aside
  refine ⟨next, ?_, same⟩
  rw [Disk.locate, locateBy_of_sayable (sayable_of_locateBy located), grows.origin_eq, walked]

/-- A path that leads to a file elsewhere leads to the same file, and that holds what it held. -/
theorem isFile_eq (grows : Grows mark disk after) {path : Path}
    (located : disk.locate path = .ok ⟨place, some node⟩) (aside : place ≠ mark) :
    after.isFile path = disk.isFile path := by
  obtain ⟨next, again, same⟩ := grows.locate located aside
  rw [isFile, leadsTo, leadsTo, stat, stat, located, again]
  cases node <;> cases next <;> cases same <;> rfl

theorem read_eq (grows : Grows mark disk after) (sound : disk.Sound) {path : Path} {serial : Nat}
    (located : disk.locate path = .ok ⟨place, some (.file serial)⟩) (aside : place ≠ mark) :
    after.read path = disk.read path := by
  obtain ⟨next, again, same⟩ := grows.locate located aside
  have held := walk_found (walk_of_locateBy located)
  have body : after.body serial = disk.body serial := by
    rw [Disk.body, Disk.body, grows.spares.records serial (sound.numbered place serial held)]
  rw [Disk.read, Disk.read, openFile, openFile, stat, stat, located, again]
  cases next <;> cases same
  change after.system.read (after.body serial) = disk.system.read (disk.body serial)
  rw [body, grows.spares.system]

end Grows

end TokenSearch.Disk
