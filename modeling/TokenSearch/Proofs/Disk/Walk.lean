import TokenSearch.Disk.Files
import TokenSearch.Proofs.Data.Result
import TokenSearch.Proofs.Disk.Tree

namespace TokenSearch.Disk

/-! Walks that lead through directories. The way to a directory does not depend on the files that
lie about, so writing and removing files leaves it as it is. -/

/-- Goes along `rest` through directories and links only: where that leads, and how many links may
still be followed there. -/
def enter (root : Entries) (links : Nat) (here : List Text.RawText) :
    (rest : List Text.RawText) → Option (List Text.RawText × Nat)
  | [] => some (here, links)
  | name :: rest =>
      if !Path.isName name then enter root links here rest
      else if name = Path.above then enter root links here.dropLast rest
      else if nameLimit < name.byteCount then none
      else
        match root.find? (here ++ [name]) with
        | some (.dir _) => enter root links (here ++ [name]) rest
        | some (.link target) =>
            match links with
            | 0 => none
            | links + 1 => enter root links (linkOrigin target here) (linkSteps target ++ rest)
        | _ => none
termination_by rest => (links, rest.length)

theorem walk_nil (root : Entries) (aim : Aim) (links : Nat) (here : List Text.RawText) :
    walk root aim links here [] = .ok ⟨here, root.find? here⟩ := by
  rw [walk]

theorem walk_dot {root : Entries} {aim : Aim} {links : Nat} {here rest : List Text.RawText}
    {name : Text.RawText} (dot : (!Path.isName name) = true) :
    walk root aim links here (name :: rest) = walk root aim links here rest := by
  rw [walk, if_pos dot]

theorem walk_above {root : Entries} {aim : Aim} {links : Nat} {here rest : List Text.RawText} :
    walk root aim links here (Path.above :: rest) = walk root aim links here.dropLast rest := by
  rw [walk, if_neg (by decide), if_pos rfl]

/-- A step to a name, where no file is to be written to a name with a slash behind it. -/
theorem walk_name {root : Entries} {aim : Aim} {links : Nat} {here rest : List Text.RawText}
    {name : Text.RawText} (named : ¬ (!Path.isName name) = true) (down : ¬ name = Path.above)
    (free : aim ≠ .writing ∨ rest ≠ [lastSlash]) (short : ¬ nameLimit < name.byteCount) :
    walk root aim links here (name :: rest) =
      match root.find? (here ++ [name]) with
      | none => if rest.isEmpty then .ok ⟨here ++ [name], none⟩ else .error .notFound
      | some (.file serial) =>
          if rest.isEmpty then .ok ⟨here ++ [name], some (.file serial)⟩ else .error .notDirectory
      | some (.dir _) => walk root aim links (here ++ [name]) rest
      | some (.link target) =>
          if rest.isEmpty && aim = .entry then .ok ⟨here ++ [name], some (.link target)⟩
          else
            match links with
            | 0 => .error .tooManyLinks
            | links + 1 => walk root aim links (linkOrigin target here) (linkSteps target ++ rest) := by
  have unblocked : ¬ (aim = .writing && rest = [lastSlash]) = true := by
    rcases free with other | longer
    · simp [other]
    · simp [longer]
  rewrite [walk, if_neg named, if_neg down, if_neg unblocked, if_neg short]
  rfl

theorem walk_long {root : Entries} {aim : Aim} {links : Nat} {here rest : List Text.RawText}
    {name : Text.RawText} (named : ¬ (!Path.isName name) = true) (down : ¬ name = Path.above)
    (free : aim ≠ .writing ∨ rest ≠ [lastSlash]) (long : nameLimit < name.byteCount) :
    walk root aim links here (name :: rest) = .error .nameTooLong := by
  have unblocked : ¬ (aim = .writing && rest = [lastSlash]) = true := by
    rcases free with other | longer
    · simp [other]
    · simp [longer]
  rw [walk, if_neg named, if_neg down, if_neg unblocked, if_pos long]

/-- A walk that ends at a directory went through directories and links. -/
theorem enter_of_walk {root below : Entries} {links : Nat} {here rest : List Text.RawText}
    {place : Place} (walked : walk root .target links here rest = .ok place)
    (isDir : place.node = some (.dir below)) :
    (∃ left, enter root links here rest = some (place.names, left)) ∧
      root.find? place.names = some (.dir below) := by
  have free {rest : List Text.RawText} : Aim.target ≠ .writing ∨ rest ≠ [lastSlash] :=
    .inl (by decide)
  fun_induction enter root links here rest with
  | case1 links here =>
      rw [walk_nil] at walked
      cases walked
      exact ⟨⟨links, rfl⟩, isDir⟩
  | case2 links here name rest dot ih => exact ih (walk_dot dot ▸ walked)
  | case3 links here rest named ih => exact ih (walk_above ▸ walked)
  | case4 links here name rest named down long =>
      rw [walk_long named down free long] at walked
      contradiction
  | case5 links here name rest named down short inner held ih =>
      rw [walk_name named down free short, held] at walked
      exact ih walked
  | case6 here name rest named down short target held =>
      rw [walk_name named down free short, held] at walked
      simp at walked
  | case7 here name rest named down short target held links ih =>
      rw [walk_name named down free short, held] at walked
      simp only [reduceCtorEq, decide_false, Bool.and_false, Bool.false_eq_true, if_false] at walked
      exact ih walked
  | case8 links here name rest named down short noDir noLink =>
      rw [walk_name named down free short] at walked
      cases held : root.find? (here ++ [name]) with
      | none =>
          rw [held] at walked
          simp only at walked
          split at walked
          · cases walked
            contradiction
          · contradiction
      | some node =>
          cases node with
          | file serial =>
              rw [held] at walked
              simp only at walked
              split at walked
              · cases walked
                simp at isDir
              · contradiction
          | dir inner => exact absurd held (noDir inner)
          | link target => exact absurd held (noLink target)

/-- Behind the way to a directory, a walk to a name goes on from that directory. -/
theorem walk_of_enter {root : Entries} {links left : Nat} {here home rest : List Text.RawText}
    (entered : enter root links here rest = some (home, left)) (aim : Aim) {name : Text.RawText}
    (named : name ≠ lastSlash) :
    walk root aim links here (rest ++ [name]) = walk root aim left home [name] := by
  have free {front : List Text.RawText} : aim ≠ .writing ∨ front ++ [name] ≠ [lastSlash] := by
    refine .inr (fun same => named ?_)
    have last := congrArg List.getLast? same
    simpa using last
  fun_induction enter root links here rest with
  | case1 links here =>
      cases entered
      rfl
  | case2 links here other rest dot ih => rw [List.cons_append, walk_dot dot, ih entered]
  | case3 links here rest _ ih => rw [List.cons_append, walk_above, ih entered]
  | case4 links here other rest isName down long => contradiction
  | case5 links here other rest isName down short inner held ih =>
      rw [List.cons_append, walk_name isName down free short, held]
      exact ih entered
  | case6 here other rest isName down short target held => contradiction
  | case7 here other rest isName down short target held links ih =>
      rw [List.cons_append, walk_name isName down free short, held]
      have filled : (rest ++ [name]).isEmpty = false := by simp
      simp only [filled, Bool.false_and, Bool.false_eq_true, if_false]
      rw [← List.append_assoc]
      exact ih entered
  | case8 links here other rest isName down short noDir noLink => contradiction

theorem enter_nil (root : Entries) (links : Nat) (here : List Text.RawText) :
    enter root links here [] = some (here, links) := by
  rw [enter]

/-- What comes behind a way is gone from its end. -/
theorem enter_append (root : Entries) (links : Nat) (here rest more : List Text.RawText) :
    enter root links here (rest ++ more) =
      (enter root links here rest).bind (fun reached => enter root reached.2 reached.1 more) := by
  fun_induction enter root links here rest with
  | case1 links here => rfl
  | case2 links here name rest dot ih => rw [List.cons_append, enter, if_pos dot, ih]
  | case3 links here rest isName ih => rw [List.cons_append, enter, if_neg isName, if_pos rfl, ih]
  | case4 links here name rest isName down long =>
      rw [List.cons_append, enter, if_neg isName, if_neg down, if_pos long]
      rfl
  | case5 links here name rest isName down short inner held ih =>
      rw [List.cons_append, enter, if_neg isName, if_neg down, if_neg short, held]
      exact ih
  | case6 here name rest isName down short target held =>
      rw [List.cons_append, enter, if_neg isName, if_neg down, if_neg short, held]
      rfl
  | case7 here name rest isName down short target held links ih =>
      rw [List.cons_append, enter, if_neg isName, if_neg down, if_neg short, held]
      simp only
      rw [← List.append_assoc]
      exact ih
  | case8 links here name rest isName down short noDir noLink =>
      rw [List.cons_append, enter, if_neg isName, if_neg down, if_neg short]
      split
      · rename_i inner held
        exact absurd held (noDir inner)
      · rename_i target held
        exact absurd held (noLink target)
      · rfl

theorem enter_prefix {root : Entries} {links : Nat} {here rest later : List Text.RawText}
    {reached : List Text.RawText × Nat} (entered : enter root links here (rest ++ later) = some reached) :
    ∃ home left, enter root links here rest = some (home, left) := by
  rw [enter_append] at entered
  obtain ⟨⟨home, left⟩, first, _⟩ := Option.bind_eq_some_iff.mp entered
  exact ⟨home, left, first⟩

/-- A walk along the way to a directory ends there. -/
theorem walk_target_of_enter {root : Entries} {links left : Nat}
    {here home rest : List Text.RawText} (entered : enter root links here rest = some (home, left)) :
    walk root .target links here rest = .ok ⟨home, root.find? home⟩ := by
  have free {rest : List Text.RawText} : Aim.target ≠ .writing ∨ rest ≠ [lastSlash] :=
    .inl (by decide)
  fun_induction enter root links here rest with
  | case1 links here =>
      cases entered
      exact walk_nil root .target left home
  | case2 links here name rest dot ih => rw [walk_dot dot, ih entered]
  | case3 links here rest _ ih => rw [walk_above, ih entered]
  | case4 links here name rest named down long => contradiction
  | case5 links here name rest named down short inner held ih =>
      rw [walk_name named down free short, held]
      exact ih entered
  | case6 here name rest named down short target held => contradiction
  | case7 here name rest named down short target held links ih =>
      rw [walk_name named down free short, held]
      simp only [reduceCtorEq, decide_false, Bool.and_false, Bool.false_eq_true, if_false]
      exact ih entered
  | case8 links here name rest named down short noDir noLink => contradiction

/-- Where a way leads through directories to a directory, there is something under its last
name. -/
theorem entry_of_enter {root below : Entries} {links left : Nat} {here home rest : List Text.RawText}
    (entered : enter root links here rest = some (home, left))
    (found : root.find? home = some (.dir below)) :
    ∃ names node, walk root .entry links here rest = .ok ⟨names, some node⟩ := by
  have free {rest : List Text.RawText} : Aim.entry ≠ .writing ∨ rest ≠ [lastSlash] :=
    .inl (by decide)
  fun_induction enter root links here rest with
  | case1 links here =>
      cases entered
      exact ⟨home, .dir below, by rw [walk_nil, found]⟩
  | case2 links here name rest dot ih => rw [walk_dot dot]; exact ih entered
  | case3 links here rest _ ih => rw [walk_above]; exact ih entered
  | case4 links here name rest named down long => contradiction
  | case5 links here name rest named down short inner held ih =>
      rw [walk_name named down free short, held]
      exact ih entered
  | case6 here name rest named down short target held => contradiction
  | case7 here name rest named down short target held links ih =>
      rw [walk_name named down free short, held]
      simp only
      split
      · exact ⟨_, _, rfl⟩
      · exact ih entered
  | case8 links here name rest named down short noDir noLink => contradiction

theorem enter_congr {root other : Entries} {links : Nat} {here rest : List Text.RawText}
    {reached : List Text.RawText × Nat}
    (same : ∀ place, ¬ IsLeaf (root.find? place) →
      (other.find? place).map Node.kind = (root.find? place).map Node.kind)
    (entered : enter root links here rest = some reached) :
    enter other links here rest = some reached := by
  fun_induction enter root links here rest with
  | case1 links here => rw [enter]; exact entered
  | case2 links here name rest dot ih => rw [enter, if_pos dot]; exact ih entered
  | case3 links here rest named ih =>
      rw [enter, if_neg named, if_pos rfl]
      exact ih entered
  | case4 links here name rest named down long => contradiction
  | case5 links here name rest named down short inner held ih =>
      have kept := same (here ++ [name]) (by rw [held]; simp [IsLeaf])
      rw [held] at kept
      obtain ⟨inner', held'⟩ := kind_eq_dir.mp kept
      rw [enter, if_neg named, if_neg down, if_neg short, held']
      exact ih entered
  | case6 here name rest named down short target held => contradiction
  | case7 here name rest named down short target held links ih =>
      have kept := same (here ++ [name]) (by rw [held]; simp [IsLeaf])
      rw [held] at kept
      rw [enter, if_neg named, if_neg down, if_neg short, kind_eq_link.mp kept]
      exact ih entered
  | case8 links here name rest named down short noDir noLink => contradiction

theorem walk_found {root : Entries} {aim : Aim} {links : Nat} {here rest : List Text.RawText}
    {place : Place} (walked : walk root aim links here rest = .ok place) :
    root.find? place.names = place.node := by
  fun_induction walk root aim links here rest with
  | case1 => cases walked; rfl
  | case2 _ _ _ _ _ ih => exact ih walked
  | case3 _ _ _ _ ih => exact ih walked
  | case6 _ _ _ _ _ _ _ _ _ held => cases walked; exact held
  | case8 _ _ _ _ _ _ _ _ _ _ held => cases walked; exact held
  | case10 _ _ _ _ _ _ _ _ _ _ _ ih => exact ih walked
  | case11 _ _ _ _ _ _ _ _ _ _ held => cases walked; exact held
  | case13 _ _ _ _ _ _ _ _ _ _ _ _ ih => exact ih walked
  | case4 | case5 | case7 | case9 | case12 => cases walked

/-- A path without links depends on the links of the tree alone. -/
theorem resolveFrom_congr {root other : Entries} (depth : Nat) (seen : Seen)
    (here rest : List Text.RawText)
    (same : ∀ place target,
      other.find? place = some (.link target) ↔ root.find? place = some (.link target)) :
    resolveFrom other depth seen here rest = resolveFrom root depth seen here rest := by
  fun_induction resolveFrom root depth seen here rest with
  | case1 depth seen here => rw [resolveFrom]
  | case2 depth seen here piece rest dot ih => rw [resolveFrom, if_pos dot, ih]
  | case3 depth seen here rest named ih => rw [resolveFrom, if_neg named, if_pos rfl, ih]
  | case4 depth seen here piece rest named down there target held known passed ih =>
      have found : other.find? (here ++ [piece]) = _ := (same _ _).mpr held
      have state : Data.Assoc.get? seen (here ++ [piece]) = _ := passed
      rw [resolveFrom, if_neg named, if_neg down]
      simp only [found, state]
      exact ih
  | case5 depth seen here piece rest named down there target held passed =>
      have found : other.find? (here ++ [piece]) = _ := (same _ _).mpr held
      have state : Data.Assoc.get? seen (here ++ [piece]) = _ := passed
      rw [resolveFrom, if_neg named, if_neg down]
      simp only [found, state]
      rfl
  | case6 seen here piece rest named down there target held unseen =>
      have found : other.find? (here ++ [piece]) = _ := (same _ _).mpr held
      have state : Data.Assoc.get? seen (here ++ [piece]) = _ := unseen
      rw [resolveFrom, if_neg named, if_neg down]
      simp only [found, state]
      rfl
  | case7 seen here piece rest named down there target held unseen depth inner ended follow _ ih =>
      have found : other.find? (here ++ [piece]) = _ := (same _ _).mpr held
      have state : Data.Assoc.get? seen (here ++ [piece]) = _ := unseen
      rw [resolveFrom, if_neg named, if_neg down]
      simp only [found, state]
      rw [follow, if_pos ended]
      exact ih
  | case8 seen here piece rest named down there target held unseen depth inner open_ follow =>
      have found : other.find? (here ++ [piece]) = _ := (same _ _).mpr held
      have state : Data.Assoc.get? seen (here ++ [piece]) = _ := unseen
      rw [resolveFrom, if_neg named, if_neg down]
      simp only [found, state]
      rw [follow, if_neg open_]
  | case9 depth seen here piece rest named down there noLink ih =>
      rw [resolveFrom, if_neg named, if_neg down]
      simp only
      split
      · rename_i target held
        exact absurd ((same _ _).mp held) (noLink target)
      · exact ih

end TokenSearch.Disk
