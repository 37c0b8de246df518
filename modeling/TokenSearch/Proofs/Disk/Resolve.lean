import Mathlib.Data.List.Perm.Subperm
import TokenSearch.Proofs.Data.Assoc
import TokenSearch.Proofs.Disk.Make

namespace TokenSearch.Disk

/-! Where a path leads, and what it is resolved to. A path that leads to a directory is resolved to the
place of that directory: no link can be met while it is itself being followed, since following it
would then take more links than it takes. -/

open Data Text

/-- The pieces `rest` lead from `here` through directories to `home`, and `cost` links are followed on
the way. A link is followed to its end before the way goes on. -/
inductive Leads (root : Entries) :
    List RawText → List RawText → List RawText → Nat → Prop
  | done {here : List RawText} : Leads root here [] here 0
  | skip {here rest home : List RawText} {piece : RawText} {cost : Nat} :
      Path.isName piece = false → Leads root here rest home cost →
      Leads root here (piece :: rest) home cost
  | up {here rest home : List RawText} {cost : Nat} :
      Leads root here.dropLast rest home cost → Leads root here (Path.above :: rest) home cost
  | down {here rest home : List RawText} {piece : RawText} {below : Entries} {cost : Nat} :
      Path.isName piece = true → piece ≠ Path.above →
      root.find? (here ++ [piece]) = some (.dir below) →
      Leads root (here ++ [piece]) rest home cost → Leads root here (piece :: rest) home cost
  | follow {here rest via home : List RawText} {piece target : RawText} {first later : Nat} :
      Path.isName piece = true → piece ≠ Path.above →
      root.find? (here ++ [piece]) = some (.link target) →
      Leads root (linkOrigin target here) (Path.piecesOf target) via first →
      Leads root via rest home later → Leads root here (piece :: rest) home (first + later + 1)

namespace Leads

variable {root : Entries} {here rest more home other : List RawText} {cost count : Nat}

theorem isName_above : Path.isName Path.above = true := by decide

/-- A way ends at one place, after one number of links. -/
theorem determined (one : Leads root here rest home cost) (two : Leads root here rest other count) :
    home = other ∧ cost = count := by
  induction one generalizing other count with
  | done =>
      cases two
      exact ⟨rfl, rfl⟩
  | skip dot _ ih =>
      cases two with
      | skip _ two => exact ih two
      | up two => exact absurd (dot.symm.trans isName_above) (by decide)
      | down named | follow named => exact absurd (dot.symm.trans named) (by decide)
  | up _ ih =>
      cases two with
      | skip dot => exact absurd (dot.symm.trans isName_above) (by decide)
      | up two => exact ih two
      | down _ down | follow _ down => exact absurd rfl down
  | down named down held _ ih =>
      cases two with
      | skip dot => exact absurd (dot.symm.trans named) (by decide)
      | up => exact absurd rfl down
      | down _ _ _ two => exact ih two
      | follow _ _ link => cases held.symm.trans link
  | follow named down held _ _ first later =>
      cases two with
      | skip dot => exact absurd (dot.symm.trans named) (by decide)
      | up => exact absurd rfl down
      | down _ _ dir => cases held.symm.trans dir
      | follow _ _ link inner outer =>
          cases held.symm.trans link
          obtain ⟨rfl, rfl⟩ := first inner
          obtain ⟨rfl, rfl⟩ := later outer
          exact ⟨rfl, rfl⟩

theorem of_append (leads : Leads root here (rest ++ more) home cost) :
    ∃ via first later, Leads root here rest via first ∧ Leads root via more home later := by
  induction rest generalizing here cost with
  | nil => exact ⟨here, 0, cost, .done, leads⟩
  | cons piece rest ih =>
      cases leads with
      | skip dot leads =>
          obtain ⟨via, first, later, early, late⟩ := ih leads
          exact ⟨via, first, later, .skip dot early, late⟩
      | up leads =>
          obtain ⟨via, first, later, early, late⟩ := ih leads
          exact ⟨via, first, later, .up early, late⟩
      | down named down held leads =>
          obtain ⟨via, first, later, early, late⟩ := ih leads
          exact ⟨via, first, later, .down named down held early, late⟩
      | follow named down held inner leads =>
          obtain ⟨via, first, later, early, late⟩ := ih leads
          exact ⟨via, _, later, .follow named down held inner early, late⟩

/-- Only the names among the pieces count. -/
theorem names_iff : Leads root here (rest.filter Path.isName) home cost ↔
    Leads root here rest home cost := by
  induction rest generalizing here cost with
  | nil => rfl
  | cons piece rest ih =>
      cases named : Path.isName piece with
      | false =>
          rw [List.filter_cons_of_neg (by simp [named]), ih]
          constructor
          · exact .skip named
          · intro leads
            cases leads with
            | skip _ leads => exact leads
            | up => exact absurd (named.symm.trans isName_above) (by decide)
            | down other | follow other => exact absurd (named.symm.trans other) (by decide)
      | true =>
          rw [List.filter_cons_of_pos named]
          constructor <;> intro leads
          · cases leads with
            | skip dot => exact absurd (dot.symm.trans named) (by decide)
            | up leads => exact .up (ih.mp leads)
            | down _ down held leads => exact .down named down held (ih.mp leads)
            | follow _ down held inner leads => exact .follow named down held inner (ih.mp leads)
          · cases leads with
            | skip dot => exact absurd (dot.symm.trans named) (by decide)
            | up leads => exact .up (ih.mpr leads)
            | down _ down held leads => exact .down named down held (ih.mpr leads)
            | follow _ down held inner leads => exact .follow named down held inner (ih.mpr leads)

theorem names_linkSteps (target : RawText) :
    (linkSteps target).filter Path.isName = (Path.piecesOf target).filter Path.isName := by
  have filled (piece : RawText) : (Path.isName piece && !piece.isEmpty) = Path.isName piece := by
    rw [Path.isName]
    cases piece.isEmpty <;> simp
  have names : ((Path.piecesOf target).filter (fun piece => !piece.isEmpty)).filter Path.isName =
      (Path.piecesOf target).filter Path.isName := by
    rw [List.filter_filter]
    simp only [filled]
  have slash : [lastSlash].filter Path.isName = [] := by decide
  unfold linkSteps
  simp only
  split
  · rw [List.filter_append, names, slash, List.append_nil]
  · exact names

/-- What a walk enters, it is led to. -/
theorem of_enter {links left : Nat} (entered : enter root links here rest = some (home, left)) :
    ∃ cost, Leads root here rest home cost := by
  fun_induction enter root links here rest with
  | case1 =>
      cases entered
      exact ⟨0, .done⟩
  | case2 links here name rest dot ih =>
      obtain ⟨cost, leads⟩ := ih entered
      exact ⟨cost, .skip (by simpa using dot) leads⟩
  | case3 links here rest _ ih =>
      obtain ⟨cost, leads⟩ := ih entered
      exact ⟨cost, .up leads⟩
  | case5 links here name rest named down short below held ih =>
      obtain ⟨cost, leads⟩ := ih entered
      exact ⟨cost, .down (by simpa using named) down held leads⟩
  | case7 here name rest named down short target held links ih =>
      obtain ⟨cost, leads⟩ := ih entered
      obtain ⟨via, first, later, inner, outer⟩ := leads.of_append
      have pieces := names_iff.mp (names_linkSteps target ▸ names_iff.mpr inner)
      exact ⟨_, .follow (by simpa using named) down held pieces outer⟩
  | case4 | case6 | case8 => cases entered

end Leads

namespace Entries

mutual

/-- The places of the links below a node. -/
def Node.linkPlaces : Node → List (List RawText)
  | .file _ => []
  | .link _ => [[]]
  | .dir entries => entries.linkPlaces

def linkPlaces : Entries → List (List RawText)
  | .nil => []
  | .cons name node rest => (Node.linkPlaces node).map (name :: ·) ++ rest.linkPlaces

end

mutual

theorem Node.length_linkPlaces (node : Node) :
    (Node.linkPlaces node).length = Node.linkCount node := by
  cases node with
  | file | link => rfl
  | dir entries => exact length_linkPlaces entries

theorem length_linkPlaces (entries : Entries) : entries.linkPlaces.length = entries.linkCount := by
  cases entries with
  | nil => rfl
  | cons name node rest =>
      rw [linkPlaces, linkCount, List.length_append, List.length_map, Node.length_linkPlaces,
        length_linkPlaces]

end

theorem linkPlaces_of_get? {entries : Entries} {name : RawText} {node : Node}
    (held : entries.get? name = some node) {place : List RawText}
    (inside : place ∈ Node.linkPlaces node) : name :: place ∈ entries.linkPlaces := by
  fun_induction get? entries name with
  | case1 => cases held
  | case2 other rest =>
      cases held
      exact List.mem_append_left _ (List.mem_map_of_mem inside)
  | case3 first other rest differs ih => exact List.mem_append_right _ (ih held)

theorem mem_linkPlaces {entries : Entries} {place : List RawText} {target : RawText}
    (found : entries.find? place = some (.link target)) : place ∈ entries.linkPlaces := by
  induction place generalizing entries with
  | nil => cases found
  | cons name rest ih =>
      rw [find?] at found
      split at found
      · rename_i below held
        exact linkPlaces_of_get? held (ih found)
      · rename_i node _ held
        split at found
        · rename_i last
          cases found
          rw [List.isEmpty_iff.mp last]
          exact linkPlaces_of_get? held (List.mem_singleton_self [])
        · contradiction
      · contradiction

/-- There are no more places of links than links. -/
theorem length_le_linkCount {entries : Entries} {places : List (List RawText)}
    (distinct : places.Nodup)
    (links : ∀ place ∈ places, ∃ target, entries.find? place = some (.link target)) :
    places.length ≤ entries.linkCount := by
  rw [← length_linkPlaces]
  refine (distinct.subperm (fun place member => ?_)).length_le
  obtain ⟨target, found⟩ := links place member
  exact mem_linkPlaces found

end Entries

/-- What is kept of links that were followed is where they lead. -/
def Recalls (root : Entries) (seen : Seen) : Prop :=
  ∀ here piece via target, Assoc.get? seen (here ++ [piece]) = some (some via) →
    root.find? (here ++ [piece]) = some (.link target) →
    ∃ cost, Leads root (linkOrigin target here) (Path.piecesOf target) via cost

/-- The links that are being followed. Each takes at least `cost` links to follow. -/
structure Pending (root : Entries) (begun : List (List RawText)) (cost : Nat) (seen : Seen) :
    Prop where
  mem_iff : ∀ place, Assoc.get? seen place = some none ↔ place ∈ begun
  distinct : begun.Nodup
  links : ∀ place ∈ begun, ∃ target, root.find? place = some (.link target)
  dear : ∀ here piece target via count, here ++ [piece] ∈ begun →
    root.find? (here ++ [piece]) = some (.link target) →
    Leads root (linkOrigin target here) (Path.piecesOf target) via count → cost ≤ count

section

variable {root : Entries} {begun : List (List RawText)} {cost count : Nat} {seen next : Seen}
  {here via : List RawText} {piece target : RawText}

/-- A link that begins to be followed leads nowhere yet. -/
theorem Recalls.begin (recalls : Recalls root seen) (place : List RawText) :
    Recalls root (Assoc.put seen place none) := by
  intro above name end_ other known link
  rw [Assoc.get?_put] at known
  split at known
  · cases known
  · exact recalls above name end_ other known link

theorem Recalls.finish (recalls : Recalls root seen)
    (held : root.find? (here ++ [piece]) = some (.link target))
    (led : Leads root (linkOrigin target here) (Path.piecesOf target) via cost) :
    Recalls root (Assoc.put seen (here ++ [piece]) (some via)) := by
  intro above name end_ other known link
  rw [Assoc.get?_put] at known
  split at known
  · rename_i same
    cases known
    obtain ⟨rfl, last⟩ := List.append_inj' same rfl
    cases last
    cases held.symm.trans link
    exact ⟨cost, led⟩
  · exact recalls above name end_ other known link

namespace Pending

theorem mono (pending : Pending root begun cost seen) (less : count ≤ cost)
    (same : ∀ place, Assoc.get? next place = some none ↔ place ∈ begun) :
    Pending root begun count next where
  mem_iff := same
  distinct := pending.distinct
  links := pending.links
  dear := fun here piece target via count member held leads =>
    Nat.le_trans less (pending.dear here piece target via count member held leads)

/-- A link that begins to be followed takes fewer links than those that are being followed. -/
theorem begin (pending : Pending root begun cost seen) (new : here ++ [piece] ∉ begun)
    (held : root.find? (here ++ [piece]) = some (.link target))
    (led : Leads root (linkOrigin target here) (Path.piecesOf target) via count)
    (less : count ≤ cost) :
    Pending root ((here ++ [piece]) :: begun) count (Assoc.put seen (here ++ [piece]) none) where
  mem_iff := by
    intro place
    rw [Assoc.get?_put, List.mem_cons, eq_comm (a := place)]
    by_cases same : here ++ [piece] = place
    · simp [same]
    · simp [same, pending.mem_iff]
  distinct := List.nodup_cons.mpr ⟨new, pending.distinct⟩
  links := List.forall_mem_cons.mpr ⟨⟨target, held⟩, pending.links⟩
  dear := by
    intro above name other end_ count member link again
    rcases List.mem_cons.mp member with same | member
    · obtain ⟨rfl, last⟩ := List.append_inj' same rfl
      cases last
      cases held.symm.trans link
      exact Nat.le_of_eq (led.determined again).2
    · exact Nat.le_trans less (pending.dear above name other end_ count member link again)

/-- A link that was followed to its end is followed no more. -/
theorem finish {place : List RawText} (new : place ∉ begun)
    (left : ∀ other, Assoc.get? seen other = some none ↔ other ∈ place :: begun)
    (other : List RawText) :
    Assoc.get? (Assoc.put seen place (some via)) other = some none ↔ other ∈ begun := by
  rw [Assoc.get?_put]
  by_cases same : place = other
  · subst same
    simp [new]
  · rw [if_neg same, left, List.mem_cons]
    simp [Ne.symm same]

end Pending

end

/-- A path that leads to a directory is resolved to its place. -/
theorem Leads.resolveFrom_eq {root : Entries} {here rest home : List RawText} {cost : Nat}
    (leads : Leads root here rest home cost) {depth : Nat} {seen : Seen}
    {begun : List (List RawText)} (recalls : Recalls root seen)
    (pending : Pending root begun cost seen)
    (room : depth + begun.length = root.linkCount + 1) :
    ∃ later, resolveFrom root depth seen here rest = ⟨home, true, later⟩ ∧ Recalls root later ∧
      ∀ place, Assoc.get? later place = some none ↔ place ∈ begun := by
  induction leads generalizing depth seen begun with
  | done =>
      refine ⟨seen, ?_, recalls, pending.mem_iff⟩
      rw [resolveFrom]
  | skip dot _ ih =>
      rw [resolveFrom, if_pos (by simp [dot])]
      exact ih recalls pending room
  | up _ ih =>
      rw [resolveFrom, if_neg (by decide), if_pos rfl]
      exact ih recalls pending room
  | down named down held _ ih =>
      rw [resolveFrom, if_neg (by simp [named]), if_neg down]
      simp only [held]
      exact ih recalls pending room
  | @follow here rest via home piece target first later named down held inner outer ihFirst ihLater =>
      rw [resolveFrom, if_neg (by simp [named]), if_neg down]
      simp only [held]
      cases state : Assoc.get? seen (here ++ [piece]) with
      | some known =>
          cases known with
          | some known =>
              obtain ⟨_, led⟩ := recalls here piece known target state held
              obtain ⟨rfl, _⟩ := inner.determined led
              exact ihLater recalls (pending.mono (by omega) pending.mem_iff) room
          | none =>
              have dear := pending.dear here piece target via first ((pending.mem_iff _).mp state)
                held inner
              omega
      | none =>
          have new : here ++ [piece] ∉ begun := by
            intro member
            rw [(pending.mem_iff _).mpr member] at state
            cases state
          have opened := pending.begin new held inner (by omega)
          have few := Entries.length_le_linkCount opened.distinct opened.links
          rw [List.length_cons] at few
          obtain ⟨depth, rfl⟩ : ∃ less, depth = less + 1 := ⟨depth - 1, by omega⟩
          obtain ⟨closed, resolved, recalled, left⟩ := @ihFirst depth _ _ (recalls.begin _) opened
            (by rw [List.length_cons]; omega)
          simp only [resolved, if_true]
          exact ihLater (recalled.finish held inner)
            (pending.mono (by omega) (Pending.finish new left)) room

/-- Names that lead from a directory down. -/
def Descends (names : List RawText) : Prop :=
  ∀ name ∈ names, Path.isName name = true ∧ name ≠ Path.above

theorem Descends.dropLast {names : List RawText} (descends : Descends names) :
    Descends names.dropLast :=
  fun name member => descends name (List.dropLast_subset names member)

theorem Descends.concat {names : List RawText} {name : RawText} (descends : Descends names)
    (named : Path.isName name = true) (down : name ≠ Path.above) : Descends (names ++ [name]) := by
  intro other member
  rcases List.mem_append.mp member with early | last
  · exact descends other early
  · rw [List.mem_singleton.mp last]
    exact ⟨named, down⟩

theorem Descends.linkOrigin {names : List RawText} (descends : Descends names) (target : RawText) :
    Descends (linkOrigin target names) := by
  unfold Disk.linkOrigin
  split
  · exact fun name member => absurd member List.not_mem_nil
  · exact descends

theorem Leads.descends {root : Entries} {here rest home : List RawText} {cost : Nat}
    (leads : Leads root here rest home cost) (descends : Descends here) : Descends home := by
  induction leads with
  | done => exact descends
  | skip _ _ ih => exact ih descends
  | up _ ih => exact ih descends.dropLast
  | down named down _ _ ih => exact ih (descends.concat named down)
  | follow _ _ _ _ _ first later => exact later (first (descends.linkOrigin _))

theorem tidy_eq {names : List RawText} (descends : Descends names) : tidy names = names := by
  have kept (front rest : List RawText) (descends : Descends rest) :
      rest.foldl (fun kept name =>
        if !Path.isName name then kept
        else if name = Path.above then kept.dropLast
        else kept ++ [name]) front = front ++ rest := by
    induction rest generalizing front with
    | nil => simp
    | cons name rest ih =>
        obtain ⟨named, down⟩ := descends name List.mem_cons_self
        rw [List.foldl_cons, if_neg (by simp [named]), if_neg down,
          ih _ (fun other member => descends other (List.mem_cons_of_mem _ member))]
        simp
  exact kept [] names descends

/-- A path is resolved to the place of the directory to which it leads. -/
theorem Home.resolve_eq {disk : Disk} {path : Path} {home : List RawText} {entries : Entries}
    (at_ : disk.Home path home entries) (current : Descends disk.current) :
    disk.resolve path = home := by
  obtain ⟨links, entered⟩ := at_.entered
  obtain ⟨cost, leads⟩ := Leads.of_enter entered
  have origin : Descends (disk.origin path) := by
    unfold Disk.origin
    split
    · exact fun name member => absurd member List.not_mem_nil
    · exact current
  have nothing : Pending disk.root [] cost [] :=
    ⟨by simp [Assoc.get?], List.nodup_nil, by simp, by simp⟩
  obtain ⟨seen, resolved, _⟩ := leads.resolveFrom_eq (fun _ _ _ _ known => by cases known) nothing
    (by rfl)
  rw [Disk.resolve, resolved, tidy_eq (leads.descends origin)]

/-- What is resolved has no dots in it. -/
theorem descends_tidy (names : List RawText) : Descends (tidy names) := by
  have kept (front rest : List RawText) (descends : Descends front) :
      Descends (rest.foldl (fun kept name =>
        if !Path.isName name then kept
        else if name = Path.above then kept.dropLast
        else kept ++ [name]) front) := by
    induction rest generalizing front with
    | nil => exact descends
    | cons name rest ih =>
        rw [List.foldl_cons]
        split
        · exact ih front descends
        · rename_i named
          split
          · exact ih _ descends.dropLast
          · rename_i down
            exact ih _ (descends.concat (by simpa using named) down)
  exact kept [] names (fun _ member => absurd member List.not_mem_nil)

/-- The way down to a directory ends there, or at a name that is too long. -/
theorem walk_descends {root below : Entries} {links : Nat} {here names : List RawText}
    (found : root.find? (here ++ names) = some (.dir below)) (descends : Descends names) :
    walk root .target links here names = .ok ⟨here ++ names, some (.dir below)⟩ ∨
      walk root .target links here names = .error .nameTooLong := by
  induction names generalizing here with
  | nil =>
      rw [List.append_nil] at found ⊢
      exact .inl (by rw [walk_nil, found])
  | cons name rest ih =>
      obtain ⟨named, down⟩ := descends name List.mem_cons_self
      by_cases long : nameLimit < name.byteCount
      · exact .inr (walk_long (by simp [named]) down (.inl (by decide)) long)
      · rw [List.append_cons] at found ⊢
        obtain ⟨inner, dir⟩ : root.IsDir (here ++ [name]) := by
          rcases rest with _ | ⟨next, rest⟩
          · exact ⟨below, by simpa using found⟩
          · exact Entries.isDir_of_find? found (by simp)
        rw [walk_name (by simp [named]) down (.inl (by decide)) long, dir]
        exact ih found (fun other member => descends other (List.mem_cons_of_mem _ member))

end TokenSearch.Disk
