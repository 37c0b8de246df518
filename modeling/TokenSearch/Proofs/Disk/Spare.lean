import TokenSearch.Proofs.Disk.Make

namespace TokenSearch.Disk

/-! What a change leaves alone: all that was there is still there, and nothing came but
directories. -/

open Entries Text

/-- A disk as operations leave it: the directory from which relative paths are seen is there, and
the number of the next file is not in use. -/
structure Sound (disk : Disk) : Prop where
  hasCurrent : disk.HasCurrent
  numbered : ∀ place serial, disk.root.find? place = some (.file serial) → serial < disk.next

namespace Entries

mutual

/-- The numbers of the files below a node, its own among them. -/
def Node.serials : Node → List Nat
  | .file serial => [serial]
  | .dir entries => entries.serials
  | .link _ => []

def serials : Entries → List Nat
  | .nil => []
  | .cons _ node rest => Node.serials node ++ serials rest

end

theorem serials_of_get? {entries : Entries} {name : RawText} {node : Node}
    (held : entries.get? name = some node) {serial : Nat} (inside : serial ∈ Node.serials node) :
    serial ∈ entries.serials := by
  fun_induction get? entries name with
  | case1 => cases held
  | case2 other rest =>
      cases held
      exact List.mem_append_left _ inside
  | case3 first other rest differs ih => exact List.mem_append_right _ (ih held)

theorem serials_of_find? {entries : Entries} {place : List RawText} {serial : Nat}
    (found : entries.find? place = some (.file serial)) : serial ∈ entries.serials := by
  induction place generalizing entries with
  | nil => cases found
  | cons name rest ih =>
      rw [find?] at found
      cases held : entries.get? name with
      | none => simp [held] at found
      | some node =>
          rw [held] at found
          cases node with
          | dir below => exact serials_of_get? held (ih found)
          | file number =>
              simp only [Option.ite_none_right_eq_some, Option.some.injEq] at found
              rw [found.2] at held
              exact serials_of_get? held (List.mem_singleton_self serial)
          | link target => simp at found

end Entries

theorem sound_of_serials {disk : Disk} (hasCurrent : disk.HasCurrent)
    (below : ∀ serial ∈ disk.root.serials, serial < disk.next) : disk.Sound :=
  ⟨hasCurrent, fun _ serial found => below serial (serials_of_find? found)⟩

/-- Outside the places `but`, every file, link and directory is still under its name, and nothing
came but directories. Files hold what they held. -/
structure Spares (but : List RawText → Prop) (disk after : Disk) : Prop where
  current : after.current = disk.current
  next : disk.next ≤ after.next
  places : ∀ place, ¬ but place →
    (after.root.find? place).map Node.kind = (disk.root.find? place).map Node.kind ∨
      disk.root.find? place = none ∧ (after.root.find? place).map Node.kind = some .dir
  records : ∀ serial, serial < disk.next → after.record? serial = disk.record? serial
  system : after.system = disk.system

def nowhere : List RawText → Prop := fun _ => False

variable {disk made after : Disk} {path : Path} {but : List RawText → Prop}

namespace Spares

theorem refl (disk : Disk) : Spares but disk disk :=
  ⟨rfl, Nat.le_refl _, fun _ _ => .inl rfl, fun _ _ => rfl, rfl⟩

theorem trans (first : Spares nowhere disk made) (second : Spares but made after) :
    Spares but disk after where
  current := second.current.trans first.current
  system := second.system.trans first.system
  next := Nat.le_trans first.next second.next
  records := fun serial old =>
    (second.records serial (Nat.lt_of_lt_of_le old first.next)).trans (first.records serial old)
  places := by
    intro place aside
    rcases first.places place id with same | ⟨free, dir⟩
    · rcases second.places place aside with again | ⟨free, dir⟩
      · exact .inl (again.trans same)
      · rw [free, Option.map_none, eq_comm, Option.map_eq_none_iff] at same
        exact .inr ⟨same, dir⟩
    · rcases second.places place aside with again | ⟨taken, _⟩
      · exact .inr ⟨free, again.trans dir⟩
      · rw [taken] at dir
        cases dir

/-- A file that is there afterwards was there before, with the same content. -/
theorem file_eq (spares : Spares but disk after) (sound : disk.Sound) {place : List RawText}
    (aside : ¬ but place) {serial : Nat} (found : after.root.find? place = some (.file serial)) :
    disk.root.find? place = some (.file serial) ∧ after.record? serial = disk.record? serial := by
  rcases spares.places place aside with same | ⟨_, dir⟩
  · have held : disk.root.find? place = some (.file serial) := by
      rw [found] at same
      cases old : disk.root.find? place with
      | none => simp [old] at same
      | some node => cases node <;> simp_all [Node.kind]
    exact ⟨held, spares.records serial (sound.numbered place serial held)⟩
  · rw [found] at dir
    cases dir

end Spares

theorem makeDir_spares (hasCurrent : disk.HasCurrent) (done : disk.makeDir path = .ok made) :
    Spares nowhere disk made := by
  obtain ⟨⟨names, node⟩, located, done⟩ := Data.bind_eq_ok.mp done
  cases node with
  | some node => simp [fail] at done
  | none =>
      cases done
      obtain ⟨home, name, below, rfl, found, free, _⟩ :=
        walk_none (walk_of_locateBy located) (hasCurrent.origin path)
      refine ⟨rfl, Nat.le_refl _, fun place _ => ?_, fun _ _ => rfl, rfl⟩
      by_cases inside : (home ++ [name]) <+: place
      · -- below the new directory there was nothing, and there is nothing
        obtain ⟨rest, rfl⟩ := inside
        have before : disk.root.find? (home ++ [name] ++ rest) = none := by
          rw [List.append_assoc, find?_append found, List.singleton_append, find?, free]
        have there : (disk.root.set (some (.dir .nil)) (home ++ [name])).find? (home ++ [name]) =
            some (.dir .nil) := by
          rw [find?_child (find?_set_home found name _), get?_change_some]
        change (_ = _) ∨ _ ∧ ((disk.root.set (some (.dir .nil)) (home ++ [name])).find? _).map _ = _
        cases rest with
        | nil => exact .inr ⟨before, by rw [List.append_nil, there]; rfl⟩
        | cons first others =>
            refine .inl ?_
            rw [before, Disk.setNode, find?_append there]
            rfl
      · exact .inl (kind_set found (some (.dir .nil)) inside)

/-- What each directory that is made leaves true is true at the end, also if not all can be made. -/
theorem makeDirs_induct {P : Disk → Prop} (hasCurrent : disk.HasCurrent) (start : P disk)
    (step : ∀ (before made : Disk) (path : Path), before.HasCurrent → P before →
      before.makeDir path = .ok made → P made) (path : Path) : P (disk.makeDirs path).2 := by
  fun_induction makeDirs disk path with
  | case1 path made done => exact step disk made path hasCurrent start done
  | case2 => exact start
  | case3 path _ _ _ _ error after refused ih =>
      rw [refused] at ih
      exact ih
  | case4 path _ _ _ _ after ready made done ih =>
      have stands := (makeDirs_made hasCurrent path.parent).1
      rw [ready] at ih stands
      exact step after made path stands ih done
  | case5 path _ _ _ _ after ready _ _ _ ih =>
      rw [ready] at ih
      exact ih
  | case6 path _ _ _ _ after ready error _ _ ih =>
      rw [ready] at ih
      rw [(settle_eq after path error).1]
      exact ih
  | case7 path error =>
      rw [(settle_eq disk path error).1]
      exact start

/-- Whether or not a directory can be made, nothing is lost on the way. -/
theorem makeDirs_spares (hasCurrent : disk.HasCurrent) (path : Path) :
    Spares nowhere disk (disk.makeDirs path).2 :=
  makeDirs_induct hasCurrent (.refl disk)
    (fun _ _ _ stands spares done => spares.trans (makeDir_spares stands done)) path

theorem makeDir_linkCount (hasCurrent : disk.HasCurrent) (done : disk.makeDir path = .ok made) :
    made.root.linkCount = disk.root.linkCount := by
  obtain ⟨⟨names, node⟩, located, done⟩ := Data.bind_eq_ok.mp done
  cases node with
  | some node => simp [fail] at done
  | none =>
      cases done
      obtain ⟨home, name, below, rfl, found, free, _⟩ :=
        walk_none (walk_of_locateBy located) (hasCurrent.origin path)
      exact linkCount_set found (free ▸ rfl) rfl

/-- No links come with the directories that are made. -/
theorem makeDirs_linkCount (hasCurrent : disk.HasCurrent) (path : Path) :
    (disk.makeDirs path).2.root.linkCount = disk.root.linkCount :=
  makeDirs_induct hasCurrent (P := fun later => later.root.linkCount = disk.root.linkCount) rfl
    (fun _ _ _ stands same done => (makeDir_linkCount stands done).trans same) path

end TokenSearch.Disk
