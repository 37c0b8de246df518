import TokenSearch.Proofs.Disk.Home

namespace TokenSearch.Disk

/-! Making directories. A directory that could be made is there afterwards. -/

/-- A place at which there is a directory. -/
def Entries.IsDir (root : Entries) (place : List Text.RawText) : Prop :=
  ∃ below, root.find? place = some (.dir below)

namespace Entries

theorem isDir_nil (root : Entries) : root.IsDir [] := ⟨root, rfl⟩

theorem isDir_of_find? {root : Entries} {home rest : List Text.RawText} {node : Node}
    (found : root.find? (home ++ rest) = some node) (filled : rest ≠ []) : root.IsDir home := by
  induction home generalizing root with
  | nil => exact isDir_nil root
  | cons name home ih =>
      rw [List.cons_append, find?] at found
      cases held : root.get? name with
      | none => simp [held] at found
      | some other =>
          cases other with
          | dir inner =>
              rw [held] at found
              obtain ⟨below, inside⟩ := ih found
              exact ⟨below, by rw [find?, held]; exact inside⟩
          | file serial => simp [held, filled] at found
          | link target => simp [held, filled] at found

theorem IsDir.dropLast {root : Entries} {place : List Text.RawText} (dir : root.IsDir place) :
    root.IsDir place.dropLast := by
  rcases List.eq_nil_or_concat place with rfl | ⟨front, last, rfl⟩
  · exact dir
  · obtain ⟨below, found⟩ := dir
    rw [List.concat_eq_append] at found ⊢
    rw [List.dropLast_concat]
    exact isDir_of_find? found (by simp)

theorem IsDir.linkOrigin {root : Entries} {place : List Text.RawText} (dir : root.IsDir place)
    (target : Text.RawText) : root.IsDir (linkOrigin target place) := by
  unfold Disk.linkOrigin
  split
  · exact isDir_nil root
  · exact dir

end Entries

open Entries

/-- A walk that ends at an empty place ends at a free name of a directory. Once there is a directory
under that name, the same way leads to it. -/
theorem walk_none {root : Entries} {aim : Aim} {links : Nat} {here rest names : List Text.RawText}
    (walked : walk root aim links here rest = .ok ⟨names, none⟩) (dir : root.IsDir here) :
    ∃ home name below, names = home ++ [name] ∧ root.find? home = some (.dir below) ∧
      below.get? name = none ∧
      ∀ other : Entries, other.IsDir names →
        (∀ place, ¬ IsLeaf (root.find? place) →
          (other.find? place).map Node.kind = (root.find? place).map Node.kind) →
        ∃ left, enter other links here rest = some (names, left) := by
  fun_induction walk root aim links here rest with
  | case1 links here =>
      obtain ⟨below, found⟩ := dir
      rw [found] at walked
      cases walked
  | case2 links here name rest dot ih =>
      obtain ⟨home, last, below, split, found, free, later⟩ := ih walked dir
      refine ⟨home, last, below, split, found, free, fun other made same => ?_⟩
      rw [enter, if_pos dot]
      exact later other made same
  | case3 links here rest named ih =>
      obtain ⟨home, last, below, split, found, free, later⟩ := ih walked dir.dropLast
      refine ⟨home, last, below, split, found, free, fun other made same => ?_⟩
      rw [enter, if_neg named, if_pos rfl]
      exact later other made same
  | case6 links here name rest named down _ short there held last =>
      rw [Except.ok.injEq, Place.mk.injEq] at walked
      obtain ⟨rfl, -⟩ := walked
      obtain ⟨below, found⟩ := dir
      refine ⟨here, name, below, rfl, found, ?_, fun other made same => ⟨links, ?_⟩⟩
      · rw [← find?_child found name]
        exact held
      · obtain ⟨inner, made⟩ := made
        rw [List.isEmpty_iff.mp last, enter, if_neg named, if_neg down, if_neg short, made, enter]
  | case10 links here name rest named down _ short there inner held ih =>
      obtain ⟨home, last, below, split, found, free, later⟩ := ih walked ⟨inner, held⟩
      refine ⟨home, last, below, split, found, free, fun other made same => ?_⟩
      have kept := same there (by rw [held]; simp [IsLeaf])
      rw [held] at kept
      obtain ⟨inner', held'⟩ := kind_eq_dir.mp kept
      rw [enter, if_neg named, if_neg down, if_neg short, held']
      exact later other made same
  | case13 here name rest named down _ short there target held _ links ih =>
      obtain ⟨home, last, below, split, found, free, later⟩ := ih walked (dir.linkOrigin target)
      refine ⟨home, last, below, split, found, free, fun other made same => ?_⟩
      have kept := same there (by rw [held]; simp [IsLeaf])
      rw [held] at kept
      rw [enter, if_neg named, if_neg down, if_neg short, kind_eq_link.mp kept]
      exact later other made same
  | case4 | case5 | case7 | case8 | case9 | case11 | case12 => simp at walked

/-- The directory from which relative paths are seen is there. -/
def HasCurrent (disk : Disk) : Prop := disk.root.IsDir disk.current

variable {disk made : Disk} {path : Path}

theorem HasCurrent.origin (hasCurrent : disk.HasCurrent) (path : Path) :
    disk.root.IsDir (disk.origin path) := by
  unfold Disk.origin
  split
  · exact isDir_nil disk.root
  · exact hasCurrent

theorem makeDir_made (hasCurrent : disk.HasCurrent) (done : disk.makeDir path = .ok made) :
    (∃ home, made.Home path home .nil) ∧ made.HasCurrent := by
  obtain ⟨⟨names, node⟩, located, done⟩ := Data.bind_eq_ok.mp done
  cases node with
  | some node => simp [fail] at done
  | none =>
      cases done
      obtain ⟨home, name, below, rfl, found, free, later⟩ :=
        walk_none (walk_of_locateBy located) (hasCurrent.origin path)
      have leaf : IsLeaf (below.get? name) := free ▸ .none
      have kept (place : List Text.RawText) (holds : ¬ IsLeaf (disk.root.find? place)) :=
        kind_of_set_leaf found leaf (some (.dir .nil)) holds
      have there : (disk.root.set (some (.dir .nil)) (home ++ [name])).find? (home ++ [name]) =
          some (.dir .nil) := by
        rw [find?_child (find?_set_home found name _), change, get?_put, if_pos rfl]
      refine ⟨⟨home ++ [name], later _ ⟨.nil, there⟩ kept, there⟩, ?_⟩
      obtain ⟨inner, here⟩ := hasCurrent
      have same := kept disk.current (by rw [here]; simp [IsLeaf])
      rw [here] at same
      exact kind_eq_dir.mp same

theorem settle_eq (disk : Disk) (path : Path) (error : Error) :
    (disk.settle path error).2 = disk ∧
      ((disk.settle path error).1 = .ok () → disk.isDir path = .ok true) := by
  unfold settle
  split
  · rename_i dir
    exact ⟨rfl, fun _ => dir⟩
  · exact ⟨rfl, fun returned => by contradiction⟩

theorem of_leadsTo {kind : Node → Bool} (leads : disk.leadsTo kind path = .ok true) :
    ∃ names node, disk.locate path = .ok ⟨names, some node⟩ ∧ kind node = true := by
  unfold leadsTo at leads
  split at leads
  · rename_i node found
    obtain ⟨⟨names, held⟩, located, found⟩ := Data.bind_eq_ok.mp found
    cases held with
    | none => simp [fail] at found
    | some other =>
        cases found
        exact ⟨names, node, located, Except.ok.inj leads⟩
  · cases leads
  · cases leads

theorem home_of_isDir (dir : disk.isDir path = .ok true) :
    ∃ home entries, disk.Home path home entries := by
  obtain ⟨home, node, located, kind⟩ := of_leadsTo dir
  cases node with
  | dir entries => exact ⟨home, entries, home_of_locate located⟩
  | file serial => contradiction
  | link target => contradiction

theorem settle_made (hasCurrent : disk.HasCurrent) (path : Path) (error : Error) :
    (disk.settle path error).2.HasCurrent ∧
      ((disk.settle path error).1 = .ok () →
        ∃ home entries, (disk.settle path error).2.Home path home entries) := by
  obtain ⟨kept, there⟩ := settle_eq disk path error
  rw [kept]
  exact ⟨hasCurrent, fun returned => home_of_isDir (there returned)⟩

/-- Whether or not a directory can be made, the one from which paths are seen stays. If it can, it is
there. -/
theorem makeDirs_made (hasCurrent : disk.HasCurrent) (path : Path) :
    (disk.makeDirs path).2.HasCurrent ∧
      ((disk.makeDirs path).1 = .ok () →
        ∃ home entries, (disk.makeDirs path).2.Home path home entries) := by
  fun_induction makeDirs disk path with
  | case1 path made done =>
      obtain ⟨⟨home, there⟩, stands⟩ := makeDir_made hasCurrent done
      exact ⟨stands, fun _ => ⟨home, .nil, there⟩⟩
  | case2 => exact ⟨hasCurrent, fun returned => by cases returned⟩
  | case3 path _ _ _ _ error after refused ih =>
      rw [refused] at ih
      exact ⟨ih.1, fun returned => by cases returned⟩
  | case4 path _ _ _ _ after ready made done ih =>
      rw [ready] at ih
      obtain ⟨⟨home, there⟩, stands⟩ := makeDir_made ih.1 done
      exact ⟨stands, fun _ => ⟨home, .nil, there⟩⟩
  | case5 path _ _ _ _ after ready _ _ _ ih =>
      rw [ready] at ih
      exact ⟨ih.1, fun returned => by cases returned⟩
  | case6 path _ _ _ _ after ready error _ _ ih =>
      rw [ready] at ih
      exact settle_made ih.1 path error
  | case7 path error => exact settle_made hasCurrent path error

theorem locateBy_unsayable (disk : Disk) (aim : Aim) (unsayable : ¬ Sayable path) :
    disk.locateBy aim path = .error .nullByte ∨ disk.locateBy aim path = fail .nameTooLong path := by
  cases noNull : path.hasNull with
  | true => exact .inl (by rw [locateBy, noNull]; rfl)
  | false =>
      have long : pathLimit < path.text.byteCount :=
        Nat.lt_of_not_le (fun short => unsayable ⟨noNull, short⟩)
      exact .inr (by rw [locateBy, noNull, if_neg (by simp), if_pos long])

theorem Home.makeDirs_kept {home : List Text.RawText} {entries : Entries}
    (at_ : disk.Home path home entries) : (disk.makeDirs path).2 = disk := by
  by_cases sayable : Sayable path
  · rw [at_.makeDirs_eq sayable]
  · have refused : ∃ error, disk.makeDir path = .error error ∧ error.isMissing = false := by
      rcases locateBy_unsayable disk .entry sayable with null | long
      · exact ⟨.nullByte, by rw [makeDir, locateLink, null]; rfl, rfl⟩
      · exact ⟨_, by rw [makeDir, locateLink, long]; rfl, rfl⟩
    obtain ⟨error, refused, present⟩ := refused
    rw [makeDirs, refused]
    simp only [present, Bool.false_eq_true, if_false]
    exact (settle_eq disk path error).1

theorem enter_isDir {root : Entries} {links left : Nat} {here home rest : List Text.RawText}
    (entered : enter root links here rest = some (home, left)) (dir : root.IsDir here) :
    root.IsDir home := by
  fun_induction enter root links here rest with
  | case1 => cases entered; exact dir
  | case2 _ _ _ _ _ ih => exact ih entered dir
  | case3 _ _ _ _ ih => exact ih entered dir.dropLast
  | case5 _ _ _ _ _ _ _ inner held ih => exact ih entered ⟨inner, held⟩
  | case7 _ _ _ _ _ _ target _ _ ih => exact ih entered (dir.linkOrigin target)
  | case4 | case6 | case8 => cases entered

theorem Home.parent {home : List Text.RawText} {entries : Entries} (at_ : disk.Home path home entries)
    (hasCurrent : disk.HasCurrent) : ∃ above others, disk.Home path.parent above others := by
  obtain ⟨links, entered⟩ := at_.entered
  have origin : disk.origin path.parent = disk.origin path := rfl
  have split : ∃ later, path.parts = path.parent.parts ++ later := by
    rcases List.eq_nil_or_concat path.parts with none_ | ⟨front, last, parts⟩
    · exact ⟨[], by simp [Path.parent, none_]⟩
    · exact ⟨[last], by simp [Path.parent, parts]⟩
  obtain ⟨later, parts⟩ := split
  rw [parts] at entered
  obtain ⟨above, left, entered⟩ := enter_prefix entered
  obtain ⟨others, found⟩ := enter_isDir entered (hasCurrent.origin path)
  exact ⟨above, others, ⟨left, by rw [origin]; exact entered⟩, found⟩

/-- Where a directory is there, making it or one of its parents changes nothing. -/
theorem Home.makeDirs_above {home : List Text.RawText} {entries : Entries}
    (at_ : disk.Home path home entries) (hasCurrent : disk.HasCurrent) (levels : Nat) :
    (disk.makeDirs (Nat.repeat Path.parent levels path)).2 = disk := by
  have there : ∃ above others, disk.Home (Nat.repeat Path.parent levels path) above others := by
    induction levels with
    | zero => exact ⟨home, entries, at_⟩
    | succ levels ih =>
        obtain ⟨above, others, at_⟩ := ih
        exact at_.parent hasCurrent
  obtain ⟨above, others, at_⟩ := there
  exact at_.makeDirs_kept

/-- A walk to something under a name leads through directories up to that name. -/
theorem enter_of_walk_child {root : Entries} {links : Nat} {here rest : List Text.RawText}
    {name : Text.RawText} {place : Place}
    (walked : walk root .target links here (rest ++ [name]) = .ok place) :
    ∃ home left, enter root links here rest = some (home, left) ∧
      walk root .target left home [name] = .ok place := by
  have free {rest : List Text.RawText} : Aim.target ≠ .writing ∨ rest ≠ [lastSlash] :=
    .inl (by decide)
  have filled {rest : List Text.RawText} : (rest ++ [name]).isEmpty = false := by simp
  fun_induction enter root links here rest with
  | case1 links here => exact ⟨here, links, rfl, walked⟩
  | case2 links here other rest dot ih =>
      rw [List.cons_append, walk_dot dot] at walked
      exact ih walked
  | case3 links here rest _ ih =>
      rw [List.cons_append, walk_above] at walked
      exact ih walked
  | case4 links here other rest isName down long =>
      rw [List.cons_append, walk_long isName down free long] at walked
      cases walked
  | case5 links here other rest isName down short inner held ih =>
      rw [List.cons_append, walk_name isName down free short, held] at walked
      exact ih walked
  | case6 here other rest isName down short target held =>
      rw [List.cons_append, walk_name isName down free short, held] at walked
      simp [filled] at walked
  | case7 here other rest isName down short target held links ih =>
      rw [List.cons_append, walk_name isName down free short, held] at walked
      simp only [filled, Bool.false_and, Bool.false_eq_true, if_false] at walked
      rw [← List.append_assoc] at walked
      exact ih walked
  | case8 links here other rest isName down short noDir noLink =>
      rw [List.cons_append, walk_name isName down free short] at walked
      cases held : root.find? (here ++ [other]) with
      | none => simp [held, filled] at walked
      | some node =>
          cases node with
          | file serial => simp [held, filled] at walked
          | dir inner => exact absurd held (noDir inner)
          | link target => exact absurd held (noLink target)

theorem home_of_locate_child {name : Text.RawText} (named : Path.isName name = true)
    (down : name ≠ Path.above) {names : List Text.RawText} {node : Node}
    (located : disk.locate (path.child name) = .ok ⟨names, some node⟩) :
    ∃ home entries, disk.Home path home entries ∧ entries.get? name ≠ none := by
  obtain ⟨home, left, entered, walked⟩ := enter_of_walk_child (walk_of_locateBy located)
  have held : disk.root.find? (home ++ [name]) ≠ none := by
    intro free
    by_cases short : nameLimit < name.byteCount
    · rw [walk_long (by simp [named]) down (.inl (by decide)) short] at walked
      cases walked
    · rw [walk_name (by simp [named]) down (.inl (by decide)) short, free] at walked
      cases walked
  obtain ⟨other, found⟩ := Option.ne_none_iff_exists'.mp held
  obtain ⟨entries, there⟩ := isDir_of_find? found (by simp)
  exact ⟨home, entries, ⟨⟨left, entered⟩, there⟩, by rwa [find?_child there] at held⟩

end TokenSearch.Disk
