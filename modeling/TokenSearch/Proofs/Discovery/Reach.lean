import Mathlib.Data.List.Nodup
import TokenSearch.Discovery
import TokenSearch.Proofs.Data.Result
import TokenSearch.Proofs.Data.Sort
import TokenSearch.Proofs.Disk.Names
import TokenSearch.Proofs.Disk.Tree

namespace TokenSearch

/-! The files that a walk looks at. They are told by the names that lead to them: a walk finds those
of them that are files, each once. -/

open Data Text

mutual

/-- In each directory below a node, the names fit and differ from each other. -/
def Disk.Node.Names (fits : RawText → Prop) : Disk.Node → Prop
  | .dir entries => entries.Names fits
  | _ => True

def Disk.Entries.Names (fits : RawText → Prop) : Disk.Entries → Prop
  | .nil => True
  | .cons name node rest =>
      fits name ∧ name ∉ rest.names ∧ node.Names fits ∧ rest.Names fits

end

namespace Disk.Entries

variable {fits : RawText → Prop} {entries : Entries} {name : RawText} {node : Node}

theorem mem_names_of_get? (held : entries.get? name = some node) : name ∈ entries.names := by
  fun_induction get? entries name with
  | case1 => contradiction
  | case2 => exact List.mem_cons_self
  | case3 other old rest differs ih => exact List.mem_cons_of_mem _ (ih held)

theorem Names.of_get? (names : entries.Names fits) (held : entries.get? name = some node) :
    fits name ∧ node.Names fits := by
  fun_induction get? entries name with
  | case1 => contradiction
  | case2 => cases held; exact ⟨names.1, names.2.2.1⟩
  | case3 other old rest differs ih => exact ih names.2.2.2 held

theorem Names.of_find? (names : entries.Names fits) {way : List RawText}
    (found : entries.find? way = some node) : node.Names fits := by
  fun_induction find? entries way with
  | case1 => cases found; exact names
  | case2 entries name rest below held ih => exact ih (names.of_get? held).2 found
  | case3 entries name rest other isDir held last => cases found; exact (names.of_get? held).2
  | case4 | case5 => contradiction

/-- The names on the way to a node fit. -/
theorem Names.of_mem (names : entries.Names fits) {way : List RawText}
    (found : entries.find? way = some node) (member : name ∈ way) : fits name := by
  fun_induction find? entries way with
  | case1 => contradiction
  | case2 entries first rest below held ih =>
      rcases List.mem_cons.mp member with rfl | later
      · exact (names.of_get? held).1
      · exact ih (names.of_get? held).2 found later
  | case3 entries first rest other isDir held last =>
      rw [List.isEmpty_iff.mp last, List.mem_singleton] at member
      exact member ▸ (names.of_get? held).1
  | case4 | case5 => contradiction

end Disk.Entries

mutual

theorem Disk.Node.Names.mono {fits other : RawText → Prop} (weaker : ∀ name, fits name → other name) :
    (node : Disk.Node) → node.Names fits → node.Names other
  | .dir entries, names => Disk.Entries.Names.mono weaker entries names
  | .file _, _ => trivial
  | .link _, _ => trivial

theorem Disk.Entries.Names.mono {fits other : RawText → Prop}
    (weaker : ∀ name, fits name → other name) :
    (entries : Disk.Entries) → entries.Names fits → entries.Names other
  | .nil, _ => trivial
  | .cons _ node rest, ⟨fit, apart, below, later⟩ =>
      ⟨weaker _ fit, apart, Disk.Node.Names.mono weaker node below,
        Disk.Entries.Names.mono weaker rest later⟩

end

namespace Path

/-- The path that leads from `here` down along `names`. -/
def below (here : Path) (names : List RawText) : Path := ⟨here.anchor, here.parts ++ names⟩

theorem below_nil (here : Path) : here.below [] = here := by
  simp [below]

theorem below_child (here : Path) (name : RawText) (names : List RawText) :
    (here.child name).below names = here.below (name :: names) := by
  simp [below, child]

theorem relativeTo?_below (root : Path) (names : List RawText) :
    (root.below names).relativeTo? root = some ⟨.relative, names⟩ := by
  simp [relativeTo?, below]

end Path

/-- A directory of which it can be told what it holds. -/
def Disk.Lists (disk : Disk) (path : Path) : Prop := ∃ entries, disk.scan path = .ok entries

namespace Discovery

/-- The walk from the directory `here` comes to the wanted entry at the end of `names`. -/
inductive Reaches (disk : Disk) (filter : Filter) :
    Path → Disk.Entries → List RawText → Prop
  | entry {here : Path} {entries : Disk.Entries} {name : RawText} {node : Disk.Node} :
      entries.get? name = some node → node.IsEnd → filter.wants name = true →
      Reaches disk filter here entries [name]
  | down {here : Path} {entries below : Disk.Entries} {name : RawText} {names : List RawText} :
      entries.get? name = some (.dir below) → filter.prunes disk (here.child name) name = false →
      disk.Lists (here.child name) → Reaches disk filter (here.child name) below names →
      Reaches disk filter here entries (name :: names)

variable {disk : Disk} {filter : Filter} {here : Path} {entries rest : Disk.Entries} {name : RawText}
  {node : Disk.Node} {names : List RawText}

namespace Reaches

theorem start (reaches : Reaches disk filter here entries names) :
    ∃ name later, names = name :: later ∧ name ∈ entries.names := by
  cases reaches with
  | entry held | down held => exact ⟨_, _, rfl, Disk.Entries.mem_names_of_get? held⟩

theorem fits {fit : RawText → Prop} (reaches : Reaches disk filter here entries names)
    (proper : entries.Names fit) : ∀ name ∈ names, fit name := by
  induction reaches with
  | entry held =>
      intro other member
      rw [List.mem_singleton.mp member]
      exact (proper.of_get? held).1
  | down held _ _ _ ih =>
      intro other member
      rcases List.mem_cons.mp member with rfl | later
      · exact (proper.of_get? held).1
      · exact ih (proper.of_get? held).2 other later

/-- What is reached depends only on the entry under the first name. -/
theorem congr {others : Disk.Entries} {later : List RawText}
    (same : entries.get? name = others.get? name) :
    Reaches disk filter here entries (name :: later) ↔
      Reaches disk filter here others (name :: later) := by
  constructor
  · intro reaches
    cases reaches with
    | entry held isEnd wanted => exact .entry (same ▸ held) isEnd wanted
    | down held open_ lists inner => exact .down (same ▸ held) open_ lists inner
  · intro reaches
    cases reaches with
    | entry held isEnd wanted => exact .entry (same ▸ held) isEnd wanted
    | down held open_ lists inner => exact .down (same ▸ held) open_ lists inner

/-- The entries of a directory are reached one by one. -/
theorem cons_iff (apart : name ∉ rest.names) :
    Reaches disk filter here (.cons name node rest) names ↔
      Reaches disk filter here (.cons name node .nil) names ∨
        Reaches disk filter here rest names := by
  have first : ∀ {others : Disk.Entries},
      (Disk.Entries.cons name node others).get? name = some node := by
    intro others
    simp [Disk.Entries.get?]
  have second {other : RawText} (differs : name ≠ other) :
      (Disk.Entries.cons name node rest).get? other = rest.get? other := by
    simp [Disk.Entries.get?, differs]
  constructor
  · intro reaches
    obtain ⟨other, later, rfl, _⟩ := reaches.start
    by_cases same : name = other
    · subst same
      exact .inl ((congr (first.trans first.symm)).mp reaches)
    · exact .inr ((congr (second same)).mp reaches)
  · rintro (reaches | reaches)
    · obtain ⟨other, later, rfl, member⟩ := reaches.start
      rw [List.mem_singleton.mp member] at reaches ⊢
      exact (congr (first.trans first.symm)).mp reaches
    · obtain ⟨other, later, rfl, member⟩ := reaches.start
      have differs : name ≠ other := by
        rintro rfl
        exact apart member
      exact (congr (second differs)).mpr reaches

theorem dir_iff {below : Disk.Entries} :
    Reaches disk filter here (.cons name (.dir below) .nil) names ↔
      filter.prunes disk (here.child name) name = false ∧ disk.Lists (here.child name) ∧
        ∃ later, names = name :: later ∧ Reaches disk filter (here.child name) below later := by
  have held : (Disk.Entries.cons name (.dir below) .nil).get? name = some (.dir below) := by
    simp [Disk.Entries.get?]
  constructor
  · intro reaches
    obtain ⟨other, later, rfl, member⟩ := reaches.start
    cases List.mem_singleton.mp member
    cases reaches with
    | entry there isEnd _ =>
        cases held.symm.trans there
        exact absurd rfl (isEnd below)
    | down there open_ lists inner =>
        cases held.symm.trans there
        exact ⟨open_, lists, later, rfl, inner⟩
  · rintro ⟨open_, lists, later, rfl, inner⟩
    exact .down held open_ lists inner

theorem end_iff (isEnd : node.IsEnd) :
    Reaches disk filter here (.cons name node .nil) names ↔
      filter.wants name = true ∧ names = [name] := by
  have held : (Disk.Entries.cons name node .nil).get? name = some node := by
    simp [Disk.Entries.get?]
  constructor
  · intro reaches
    obtain ⟨other, later, rfl, member⟩ := reaches.start
    cases List.mem_singleton.mp member
    cases reaches with
    | entry _ _ wanted => exact ⟨wanted, rfl⟩
    | down there _ _ _ => exact absurd (Option.some.inj (held.symm.trans there)) (isEnd _)
  · rintro ⟨wanted, rfl⟩
    exact .entry held isEnd wanted

end Reaches

/-- The ways down from a directory to the files that are found, each once. -/
structure Branches (disk : Disk) (filter : Filter) (here : Path) (entries : Disk.Entries)
    (branches : List (List RawText)) : Prop where
  distinct : branches.Nodup
  mem_iff : ∀ names, names ∈ branches ↔
    Reaches disk filter here entries names ∧ disk.isFile (here.below names) = .ok true

namespace Branches

variable {branches more : List (List RawText)}

theorem nil : Branches disk filter here .nil [] where
  distinct := List.nodup_nil
  mem_iff names := by
    refine iff_of_false List.not_mem_nil (fun both => ?_)
    obtain ⟨_, _, _, member⟩ := both.1.start
    exact List.not_mem_nil member

theorem none (nothing : ∀ names, Reaches disk filter here entries names →
    disk.isFile (here.below names) ≠ .ok true) : Branches disk filter here entries [] where
  distinct := List.nodup_nil
  mem_iff names := iff_of_false List.not_mem_nil (fun both => nothing names both.1 both.2)

theorem single (isEnd : node.IsEnd) (wanted : filter.wants name = true)
    (file : disk.isFile (here.child name) = .ok true) :
    Branches disk filter here (.cons name node .nil) [[name]] where
  distinct := List.nodup_singleton _
  mem_iff names := by
    rw [List.mem_singleton, Reaches.end_iff isEnd]
    constructor
    · rintro rfl
      exact ⟨⟨wanted, rfl⟩, file⟩
    · exact fun both => both.1.2

theorem under {below : Disk.Entries} (open_ : filter.prunes disk (here.child name) name = false)
    (lists : disk.Lists (here.child name))
    (inner : Branches disk filter (here.child name) below branches) :
    Branches disk filter here (.cons name (.dir below) .nil) (branches.map (name :: ·)) where
  distinct := inner.distinct.map List.cons_injective
  mem_iff names := by
    rw [List.mem_map, Reaches.dir_iff]
    constructor
    · rintro ⟨later, member, rfl⟩
      obtain ⟨reached, file⟩ := (inner.mem_iff later).mp member
      rw [here.below_child] at file
      exact ⟨⟨open_, lists, later, rfl, reached⟩, file⟩
    · rintro ⟨⟨_, _, later, rfl, reached⟩, file⟩
      rw [← here.below_child] at file
      exact ⟨later, (inner.mem_iff later).mpr ⟨reached, file⟩, rfl⟩

theorem append (apart : name ∉ rest.names)
    (first : Branches disk filter here (.cons name node .nil) branches)
    (second : Branches disk filter here rest more) :
    Branches disk filter here (.cons name node rest) (branches ++ more) where
  distinct := by
    refine first.distinct.append second.distinct (fun names early late => ?_)
    obtain ⟨start, later, rfl, here_⟩ := ((first.mem_iff names).mp early).1.start
    obtain ⟨_, _, same, there⟩ := ((second.mem_iff _).mp late).1.start
    cases same
    rw [List.mem_singleton.mp here_] at there
    exact apart there
  mem_iff names := by
    rw [List.mem_append, first.mem_iff, second.mem_iff, Reaches.cons_iff apart, or_and_right]

end Branches

/-- What a walk does with an entry that is no directory. -/
theorem visitNode_end (isEnd : node.IsEnd) : visitNode disk filter here name node = (do
    if filter.wants name then
      if ← disk.isFile (here.child name) then return [.file (here.child name)]
    return []) := by
  cases node with
  | dir entries => exact absurd rfl (isEnd entries)
  | file | link => rfl

theorem filesOf_append (first second : List Sight) :
    filesOf (first ++ second) = filesOf first ++ filesOf second := List.filterMap_append

theorem branches_of_end (isEnd : node.IsEnd) {sights : List Sight}
    (found : visitNode disk filter here name node = .ok sights) :
    ∃ branches, filesOf sights = branches.map here.below ∧
      Branches disk filter here (.cons name node .nil) branches := by
  rw [visitNode_end isEnd] at found
  by_cases wanted : filter.wants name = true
  · rw [if_pos wanted] at found
    obtain ⟨isFile, told, found⟩ := bind_eq_ok.mp found
    cases isFile with
    | false =>
        cases found
        refine ⟨[], rfl, .none (fun names reaches file => ?_)⟩
        rw [((Reaches.end_iff isEnd).mp reaches).2] at file
        cases told.symm.trans file
    | true =>
        cases found
        exact ⟨[[name]], rfl, .single isEnd wanted told⟩
  · rw [if_neg wanted] at found
    cases found
    refine ⟨[], rfl, .none (fun names reaches _ => ?_)⟩
    exact wanted ((Reaches.end_iff isEnd).mp reaches).1

mutual

theorem visitNode_branches {fits : RawText → Prop} {here : Path} {name : RawText} (node : Disk.Node)
    (proper : node.Names fits) {sights : List Sight}
    (found : visitNode disk filter here name node = .ok sights) :
    ∃ branches, filesOf sights = branches.map here.below ∧
      Branches disk filter here (.cons name node .nil) branches := by
  cases node with
  | file serial => exact branches_of_end (by simp [Disk.Node.IsEnd]) found
  | link target => exact branches_of_end (by simp [Disk.Node.IsEnd]) found
  | dir entries =>
      rw [visitNode] at found
      split at found
      · rename_i pruned
        cases found
        refine ⟨[], rfl, .none (fun names reaches _ => ?_)⟩
        exact Bool.noConfusion (pruned.symm.trans (Reaches.dir_iff.mp reaches).1)
      · rename_i open_
        split at found
        · rename_i listed scanned
          obtain ⟨branches, same, inner⟩ := visit_branches entries proper found
          refine ⟨branches.map (name :: ·), ?_,
            inner.under (Bool.not_eq_true _ ▸ open_) ⟨listed, scanned⟩⟩
          rw [same, List.map_map]
          exact List.map_congr_left (fun branch _ => here.below_child name branch)
        · rename_i error scanned
          cases found
          refine ⟨[], rfl, .none (fun names reaches _ => ?_)⟩
          obtain ⟨_, ⟨listed, there⟩, _⟩ := Reaches.dir_iff.mp reaches
          cases scanned.symm.trans there

/-- A walk that ends gives the files that are reached. -/
theorem visit_branches {fits : RawText → Prop} {here : Path} (entries : Disk.Entries)
    (proper : entries.Names fits) {sights : List Sight}
    (found : visit disk filter here entries = .ok sights) :
    ∃ branches, filesOf sights = branches.map here.below ∧
      Branches disk filter here entries branches := by
  cases entries with
  | nil =>
      cases found
      exact ⟨[], rfl, .nil⟩
  | cons name node rest =>
      obtain ⟨_, apart, below, later⟩ := proper
      rw [visit] at found
      obtain ⟨first, foundHere, found⟩ := bind_eq_ok.mp found
      obtain ⟨others, foundLater, found⟩ := bind_eq_ok.mp found
      cases found
      obtain ⟨branches, sameHere, early⟩ := visitNode_branches node below foundHere
      obtain ⟨more, sameLater, late⟩ := visit_branches rest later foundLater
      refine ⟨branches ++ more, ?_, early.append apart late⟩
      rw [filesOf_append, sameHere, sameLater, List.map_append]

end

mutual

theorem visitNode_total {fits : RawText → Prop} {here : Path} {name : RawText} (node : Disk.Node)
    (proper : node.Names fits)
    (told : ∀ names, Reaches disk filter here (.cons name node .nil) names →
      ∃ isFile, disk.isFile (here.below names) = .ok isFile) :
    ∃ sights, visitNode disk filter here name node = .ok sights := by
  have ended (isEnd : node.IsEnd) : ∃ sights, visitNode disk filter here name node = .ok sights := by
    rw [visitNode_end isEnd]
    by_cases wanted : filter.wants name = true
    · obtain ⟨isFile, known⟩ := told [name] ((Reaches.end_iff isEnd).mpr ⟨wanted, rfl⟩)
      have known : disk.isFile (here.child name) = .ok isFile := known
      rw [if_pos wanted, known]
      cases isFile <;> exact ⟨_, rfl⟩
    · rw [if_neg wanted]
      exact ⟨_, rfl⟩
  cases node with
  | file serial => exact ended (by simp [Disk.Node.IsEnd])
  | link target => exact ended (by simp [Disk.Node.IsEnd])
  | dir entries =>
      rw [visitNode]
      split
      · exact ⟨_, rfl⟩
      · rename_i open_
        split
        · rename_i listed scanned
          refine visit_total entries proper (fun names reaches => ?_)
          rw [here.below_child]
          exact told _ (Reaches.dir_iff.mpr
            ⟨Bool.not_eq_true _ ▸ open_, ⟨listed, scanned⟩, names, rfl, reaches⟩)
        · exact ⟨_, rfl⟩

/-- A walk ends if of each entry that is reached it can be told whether it is a file. -/
theorem visit_total {fits : RawText → Prop} {here : Path} (entries : Disk.Entries)
    (proper : entries.Names fits)
    (told : ∀ names, Reaches disk filter here entries names →
      ∃ isFile, disk.isFile (here.below names) = .ok isFile) :
    ∃ sights, visit disk filter here entries = .ok sights := by
  cases entries with
  | nil => exact ⟨[], rfl⟩
  | cons name node rest =>
      obtain ⟨_, apart, below, later⟩ := proper
      obtain ⟨first, foundHere⟩ : ∃ sights, visitNode disk filter here name node = .ok sights :=
        visitNode_total node below
          (fun names reaches => told names ((Reaches.cons_iff apart).mpr (.inl reaches)))
      obtain ⟨others, foundLater⟩ := visit_total rest later
        (fun names reaches => told names ((Reaches.cons_iff apart).mpr (.inr reaches)))
      refine ⟨first ++ others, ?_⟩
      rw [visit, foundHere, ok_bind, foundLater]
      rfl

end

theorem survey_eq (there : disk.scan here = .ok entries) :
    survey disk here filter = (visit disk filter here entries).mapError .disk := by
  rw [survey, there]

theorem discover_of_visit {sights : List Sight}
    (there : disk.scan here = .ok entries)
    (visited : visit disk filter here entries = .ok sights) :
    ∃ notes, discover disk here filter = .ok ⟨inOrder here (filesOf sights), notes⟩ := by
  rw [discover, survey_eq there, visited]
  exact ⟨_, rfl⟩

theorem relativeText_below (root : Path) (names : List RawText) :
    relativeText root (root.below names) = Path.text ⟨.relative, names⟩ := by
  rw [relativeText, Path.relativeTo?_below, Option.getD_some]

/-- The files that are found, put in order. -/
theorem Branches.sorted {branches : List (List RawText)}
    (ways : Branches disk filter here entries branches) (proper : entries.Names Path.IsPart) :
    ((inOrder here (branches.map here.below)).map
        (fun path => (relativeText here path).points)).Pairwise (· < ·) ∧
      ∀ path, path ∈ inOrder here (branches.map here.below) ↔ ∃ names, path = here.below names ∧
        Reaches disk filter here entries names ∧ disk.isFile path = .ok true := by
  constructor
  · refine ascending_mergeSort (fun path => (relativeText here path).points) ?_
    rw [List.map_map]
    refine (List.nodup_map_iff_inj_on ways.distinct).mpr ?_
    intro names first others second same
    have parts {names : List RawText} (member : names ∈ branches) :=
      ((ways.mem_iff names).mp member).1.fits proper
    simp only [Function.comp_apply, relativeText_below] at same
    exact Path.parts_of_text (parts first) (parts second) (RawText.mk.injEq .. ▸ same)
  · intro path
    rw [inOrder, List.mem_mergeSort, List.mem_map]
    constructor
    · rintro ⟨names, member, rfl⟩
      obtain ⟨reached, file⟩ := (ways.mem_iff names).mp member
      exact ⟨names, rfl, reached, file⟩
    · rintro ⟨names, rfl, reached, file⟩
      exact ⟨names, (ways.mem_iff names).mpr ⟨reached, file⟩, rfl⟩

theorem branches_of_discover {found : Found} (there : disk.scan here = .ok entries)
    (proper : entries.Names Path.IsPart) (discovered : discover disk here filter = .ok found) :
    ∃ branches, found.paths = inOrder here (branches.map here.below) ∧
      Branches disk filter here entries branches := by
  obtain ⟨sights, surveyed, discovered⟩ := bind_eq_ok.mp discovered
  cases discovered
  rw [survey_eq there] at surveyed
  obtain ⟨branches, same, ways⟩ := visit_branches entries proper (mapError_eq_ok.mp surveyed)
  exact ⟨branches, by rw [Found.ofSights, same], ways⟩

/-- What was found under a directory that is listed. -/
theorem found_of_discover {found : Found} (there : disk.scan here = .ok entries)
    (proper : entries.Names Path.IsPart) (discovered : discover disk here filter = .ok found) :
    (found.paths.map (fun path => (relativeText here path).points)).Pairwise (· < ·) ∧
      ∀ path, path ∈ found.paths ↔ ∃ names, path = here.below names ∧
        Reaches disk filter here entries names ∧ disk.isFile path = .ok true := by
  obtain ⟨branches, same, ways⟩ := branches_of_discover there proper discovered
  rw [same]
  exact ways.sorted proper

/-- Nothing is found under a directory that is not listed. -/
theorem discover_barred {cause : Disk.Cause} {subject : Disk.Subject}
    (barred : disk.scan here = .error (.refused cause subject)) :
    ∃ notes, discover disk here filter = .ok ⟨[], notes⟩ := by
  have nothing : (Found.ofSights here [.barred here (.refused cause subject)]).paths = [] :=
    List.mergeSort_nil
  rw [discover, survey, barred, ← nothing]
  exact ⟨_, rfl⟩

end Discovery

end TokenSearch
