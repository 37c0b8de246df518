import TokenSearch.Proofs.Discovery
import TokenSearch.Proofs.Discovery.Qualify
import TokenSearch.Proofs.Disk.Grow

namespace TokenSearch

/-! Discovery before and after a file came to a place at which no walk looks: it finds the same
files. -/

open Data Text

namespace Disk

variable {disk other : Disk} {path : Path} {home : List RawText} {entries others : Entries}

theorem Lists.sayable (lists : disk.Lists path) : Sayable path := by
  obtain ⟨_, scanned⟩ := lists
  obtain ⟨_, located, _⟩ := bind_eq_ok.mp scanned
  exact sayable_of_locateBy located

/-- A directory that is listed on one disk is listed on another one at the same place. -/
theorem Lists.scan_eq (lists : disk.Lists path) (at_ : disk.Home path home entries)
    (there : other.Home path home others) (same : other.system = disk.system) :
    other.scan path = .ok others := by
  have sayable := lists.sayable
  obtain ⟨_, scanned⟩ := lists
  rw [at_.scan_eq sayable] at scanned
  rw [there.scan_eq sayable, same]
  cases barred : disk.system.sealed home with
  | none => rfl
  | some cause => simp [barred, fail] at scanned

theorem Lists.plain {name : RawText} (lists : disk.Lists (path.child name))
    (at_ : disk.Home path home entries) (named : Path.isName name = true)
    (down : name ≠ Path.above) : Plain name := by
  obtain ⟨_, scanned⟩ := lists
  obtain ⟨_, located, _⟩ := bind_eq_ok.mp scanned
  exact at_.plain_of_locateBy named down located

/-- Files and links of one disk are there on the other one as well, unless they are at `mark`, and
directories are listed on both or on none. -/
structure Echoes (mark : List RawText) (disk other : Disk) : Prop where
  ends : ∀ place node, disk.root.find? place = some node → node.IsEnd → place ≠ mark →
    (other.root.find? place).map Node.kind = some node.kind
  resolve_eq : ∀ path, other.resolve path = disk.resolve path
  system : other.system = disk.system

theorem Echoes.of_kind {mark place : List RawText} {node : Node} (echoes : Echoes mark disk other)
    (held : disk.root.find? place = some node) (isEnd : node.IsEnd) (aside : place ≠ mark) :
    ∃ next, other.root.find? place = some next ∧ next.IsEnd := by
  have kept := echoes.ends place node held isEnd aside
  cases found : other.root.find? place with
  | none => simp [found] at kept
  | some next =>
      rw [found, Option.map_some, Option.some.injEq] at kept
      exact ⟨next, rfl, isEnd.of_kind kept⟩

theorem Grows.echoes {mark : List RawText} (grows : Grows mark disk other) : Echoes mark disk other where
  ends := fun _ _ held _ aside => grows.kept aside held
  resolve_eq := grows.resolve_eq
  system := grows.spares.system

theorem Grows.echoed {mark : List RawText} (grows : Grows mark disk other) : Echoes mark other disk where
  ends := fun _ _ held isEnd aside => grows.old aside held isEnd
  resolve_eq := fun path => (grows.resolve_eq path).symm
  system := grows.spares.system.symm

end Disk

namespace Discovery

variable {disk other : Disk} {filter : Filter} {here : Path} {home mark names : List RawText}
  {entries others : Disk.Entries}

theorem Filter.prunes_congr (same : ∀ path, other.resolve path = disk.resolve path) (path : Path)
    (name : RawText) : filter.prunes other path name = filter.prunes disk path name := by
  rw [prunes, prunes, same]

/-- What a walk comes to on one disk, it comes to on the other one. -/
theorem Reaches.echo (reaches : Reaches disk filter here entries names)
    (echoes : Disk.Echoes mark disk other) (at_ : disk.Home here home entries)
    (there : other.Home here home others) (descends : Disk.Descends names)
    (aside : home ++ names ≠ mark) : Reaches other filter here others names := by
  induction reaches generalizing home others with
  | @entry _ _ name node held isEnd wanted =>
      rw [← Disk.Entries.find?_child at_.found] at held
      obtain ⟨next, found, ends⟩ := echoes.of_kind held isEnd aside
      rw [Disk.Entries.find?_child there.found] at found
      exact .entry found ends wanted
  | @down here _ below name names held open_ lists inner ih =>
      obtain ⟨named, down⟩ := descends name List.mem_cons_self
      have plain := lists.plain at_ named down
      have inside := at_.child plain held
      -- the directory is there on the other disk too, since what lies at the end of the way is
      obtain ⟨node, found, isEnd⟩ := inner.find?
      obtain ⟨_, _, split, _⟩ := inner.start
      rw [← Disk.Entries.find?_append inside.found] at found
      rw [← List.append_cons] at found
      obtain ⟨_, known, _⟩ := echoes.of_kind found isEnd aside
      rw [List.append_cons] at known
      obtain ⟨others, dir⟩ := Disk.Entries.isDir_of_find? known (by simp [split])
      rw [Disk.Entries.find?_child there.found] at dir
      have beside := there.child plain dir
      refine .down dir ?_ ⟨_, lists.scan_eq inside beside echoes.system⟩ (ih inside beside ?_ ?_)
      · rw [Filter.prunes_congr echoes.resolve_eq]
        exact open_
      · exact fun other member => descends other (List.mem_cons_of_mem _ member)
      · rwa [← List.append_cons]

/-- The directories on the way lie where their names say. -/
theorem Reaches.home_below (reaches : Reaches disk filter here entries names)
    (at_ : disk.Home here home entries) (descends : Disk.Descends names) {front rest : List RawText}
    (split : names = front ++ rest) (more : rest ≠ []) :
    ∃ below, disk.Home (here.below front) (home ++ front) below := by
  induction reaches generalizing home front with
  | entry =>
      cases front with
      | nil => exact ⟨_, by simpa [Path.below_nil] using at_⟩
      | cons first front =>
          simp only [List.cons_append, List.cons.injEq, List.nil_eq, List.append_eq_nil_iff] at split
          exact absurd split.2.2 more
  | @down here _ _ name _ held _ lists _ ih =>
      cases front with
      | nil => exact ⟨_, by simpa [Path.below_nil] using at_⟩
      | cons first front =>
          cases split
          obtain ⟨named, down⟩ := descends name List.mem_cons_self
          obtain ⟨below, inside⟩ := ih (at_.child (lists.plain at_ named down) held)
            (fun other member => descends other (List.mem_cons_of_mem _ member)) rfl
          refine ⟨below, ?_⟩
          rw [← here.below_child, List.append_cons]
          exact inside

/-- A walk does not enter the directory that is left out. What it comes to there lies in the
directory in which it starts. -/
theorem Reaches.not_excluded (reaches : Reaches disk filter here entries names)
    (at_ : disk.Home here home entries) (current : Disk.Descends disk.current)
    (descends : Disk.Descends names) {place : List RawText} {name : RawText}
    (excluded : filter.excluded = some place) (split : home ++ names = place ++ [name]) :
    names = [name] ∧ place = home := by
  obtain ⟨front, last, rfl, _⟩ := reaches.wanted
  rw [← List.append_assoc] at split
  obtain ⟨same, last_⟩ := List.append_inj' split rfl
  cases last_
  rcases List.eq_nil_or_concat front with rfl | ⟨before, inner, rfl⟩
  · exact ⟨rfl, by rw [← same, List.append_nil]⟩
  · rw [List.concat_eq_append] at reaches descends same
    obtain ⟨below, inside⟩ := reaches.home_below at_ descends rfl (by simp)
    obtain ⟨open_, _⟩ := reaches.entered before inner [name] (by simp) (by simp)
    have resolved := inside.resolve_eq current
    rw [same] at resolved
    simp [Filter.prunes, excluded, resolved] at open_

/-- A walk under `root` does not look at the place `mark`: it enters no directory in which that lies,
and what it comes to leads elsewhere. -/
structure Overlooks (mark : List RawText) (disk : Disk) (filter : Filter) (root : Path)
    (home : List RawText) (entries : Disk.Entries) : Prop where
  proper : disk.root.Names Path.IsEntry
  current : Disk.Descends disk.current
  descends : Disk.Descends mark
  shut : ∃ place name, mark = place ++ [name] ∧ filter.excluded = some place ∧
    (place = home → filter.wants name = false)
  leads : ∀ names, Reaches disk filter root entries names → ∃ place node,
    disk.locate (root.below names) = .ok ⟨place, some node⟩ ∧ place ≠ mark

namespace Overlooks

variable {root : Path}

/-- No walk comes to the place itself, whatever is there. -/
theorem aside (overlooks : Overlooks mark disk filter root home entries)
    (current : other.current = disk.current) (at_ : other.Home root home others)
    (reaches : Reaches other filter root others names) : home ++ names ≠ mark := by
  rintro rfl
  have descends : Disk.Descends names :=
    fun name member => overlooks.descends name (List.mem_append_right home member)
  obtain ⟨place, name, split, excluded, unwanted⟩ := overlooks.shut
  obtain ⟨rfl, rfl⟩ := reaches.not_excluded at_ (current ▸ overlooks.current) descends excluded split
  obtain ⟨front, last, same, wanted⟩ := reaches.wanted
  obtain ⟨_, last_⟩ := List.append_inj' (show [] ++ [name] = front ++ [last] from same) rfl
  cases last_
  exact Bool.noConfusion ((unwanted rfl).symm.trans wanted)

/-- Walks come to the same entries before and after. -/
theorem reaches_iff (overlooks : Overlooks mark disk filter root home entries)
    (grows : Disk.Grows mark disk other) (at_ : disk.Home root home entries)
    (there : other.Home root home others) :
    Reaches other filter root others names ↔ Reaches disk filter root entries names := by
  have proper : entries.Names Path.IsEntry := Disk.Entries.Names.of_find? overlooks.proper at_.found
  have down (each : ∀ name ∈ names, Path.IsEntry name) : Disk.Descends names :=
    fun name member => ⟨(each name member).named, (each name member).down⟩
  constructor
  · intro reaches
    have aside := overlooks.aside grows.spares.current there reaches
    obtain ⟨node, found, isEnd⟩ := reaches.find?
    rw [← Disk.Entries.find?_append there.found] at found
    obtain ⟨old, found, _⟩ := grows.echoed.of_kind found isEnd aside
    rw [Disk.Entries.find?_append at_.found] at found
    exact reaches.echo grows.echoed there at_ (down fun _ => proper.of_mem found) aside
  · intro reaches
    exact reaches.echo grows.echoes at_ there (down (reaches.fits proper))
      (overlooks.aside rfl at_ reaches)

theorem isFile_eq (overlooks : Overlooks mark disk filter root home entries)
    (grows : Disk.Grows mark disk other) (reaches : Reaches disk filter root entries names) :
    other.isFile (root.below names) = disk.isFile (root.below names) := by
  obtain ⟨place, node, located, aside⟩ := overlooks.leads names reaches
  exact grows.isFile_eq located aside

/-- Of what a walk comes to it can be told afterwards whether it is a file. -/
theorem told (overlooks : Overlooks mark disk filter root home entries)
    (grows : Disk.Grows mark disk other) (reaches : Reaches disk filter root entries names) :
    ∃ isFile, other.isFile (root.below names) = .ok isFile := by
  obtain ⟨place, node, located, _⟩ := overlooks.leads names reaches
  rw [overlooks.isFile_eq grows reaches, Disk.isFile, Disk.leadsTo, Disk.stat, located]
  exact ⟨_, rfl⟩

/-- The same files are found. -/
theorem discover_eq (overlooks : Overlooks mark disk filter root home entries)
    (grows : Disk.Grows mark disk other) (at_ : disk.Home root home entries)
    (scanned : disk.scan root = .ok entries) (proper : other.root.Names Path.IsPart) {found : Found}
    (discovered : discover disk root filter = .ok found) :
    ∃ later, discover other root filter = .ok later ∧ later.paths = found.paths := by
  obtain ⟨others, there⟩ := grows.home at_
  have again := Disk.Lists.scan_eq ⟨entries, scanned⟩ at_ there grows.spares.system
  have names : entries.Names Path.IsPart := Disk.Entries.Names.of_find?
    (Disk.Entries.Names.mono (fun _ entry => entry.toIsPart) _ overlooks.proper) at_.found
  have namesLater : others.Names Path.IsPart := Disk.Entries.Names.of_find? proper there.found
  obtain ⟨seen, visited⟩ := visit_total others namesLater (fun names reaches =>
    overlooks.told grows ((overlooks.reaches_iff grows at_ there).mp reaches))
  obtain ⟨notes, later⟩ := discover_of_visit again visited
  obtain ⟨ascending, members⟩ := found_of_discover scanned names discovered
  obtain ⟨ascendingLater, membersLater⟩ := found_of_discover again namesLater later
  refine ⟨_, later, ?_⟩
  refine eq_of_ascending_keys (fun path => (relativeText root path).points) ascendingLater ascending
    (fun path => ?_)
  rw [members, membersLater]
  constructor
  · rintro ⟨names, rfl, reaches, file⟩
    have reached := (overlooks.reaches_iff grows at_ there).mp reaches
    exact ⟨names, rfl, reached, (overlooks.isFile_eq grows reached).symm.trans file⟩
  · rintro ⟨names, rfl, reaches, file⟩
    exact ⟨names, rfl, (overlooks.reaches_iff grows at_ there).mpr reaches,
      (overlooks.isFile_eq grows reaches).trans file⟩

/-- The files that are found hold what they held. -/
theorem read_eq (overlooks : Overlooks mark disk filter root home entries)
    (grows : Disk.Grows mark disk other) (sound : disk.Sound)
    (reaches : Reaches disk filter root entries names)
    (file : disk.isFile (root.below names) = .ok true) :
    other.read (root.below names) = disk.read (root.below names) := by
  obtain ⟨place, node, located, aside⟩ := overlooks.leads names reaches
  rw [Disk.isFile, Disk.leadsTo, Disk.stat, located] at file
  cases node with
  | file serial => exact grows.read_eq sound located aside
  | dir | link => cases file

end Overlooks

end Discovery

end TokenSearch
