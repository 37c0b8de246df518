import TokenSearch.Proofs.Artifact.Atomic
import TokenSearch.Proofs.Discovery.Echo
import TokenSearch.Proofs.Service.Returned
import TokenSearch.Proofs.Service.View

namespace TokenSearch

/-! A build does not see what it has written: the files that are found under its root are the same
before and after, if nothing that is looked at leads to the artifact. -/

open Data Artifact

theorem Discovery.exclude_home {disk : Disk} {path : Path} {place : List Text.RawText}
    {below : Disk.Entries} (at_ : disk.Home path place below) (current : Disk.Descends disk.current)
    (noNull : path.hasNull = false) : exclude disk path = .ok place := by
  have resolved := at_.resolve_eq current
  have descends : Disk.Descends place := resolved ▸ Disk.descends_tidy _
  have known (subject : Disk.Subject) :
      disk.stat ⟨.slash, place⟩ ≠ .error (.refused .tooManyLinks subject) := by
    intro circle
    by_cases sayable : Disk.Sayable ⟨.slash, place⟩
    · have walked : Disk.walk disk.root .target Disk.linkLimit [] place = .ok ⟨place, some (.dir below)⟩ ∨
          Disk.walk disk.root .target Disk.linkLimit [] place = .error .nameTooLong :=
        Disk.walk_descends at_.found descends
      have origin : disk.origin ⟨.slash, place⟩ = [] := rfl
      rw [Disk.stat, Disk.locate, Disk.locateBy_of_sayable sayable, origin] at circle
      rcases walked with walked | walked <;> rw [walked] at circle <;> cases circle
    · rcases Disk.locateBy_unsayable disk .target sayable with null | long
      · rw [Disk.stat, Disk.locate, null] at circle
        cases circle
      · rw [Disk.stat, Disk.locate, long] at circle
        cases circle
  rw [exclude, noNull, if_neg (by decide)]
  simp only [resolved]

theorem Discovery.exclude_root {disk : Disk} (current : disk.current = []) :
    exclude disk (.ofString "/") = .ok [] :=
  exclude_home disk.home_root (current ▸ fun _ member => absurd member List.not_mem_nil) rfl

theorem Discovery.hasNull_of_exclude {disk : Disk} {path : Path} {place : List Text.RawText}
    (resolved : exclude disk path = .ok place) : path.hasNull = false := by
  unfold exclude at resolved
  split at resolved
  · cases resolved
  · rename_i noNull
    simpa using noNull

namespace Store

/-- The place of the artifact, links resolved. -/
def place (store : Store) (disk : Disk) : List Text.RawText :=
  disk.resolve store.directory ++ [Text.RawText.ofString fileName]

end Store

namespace Service

/-- No link is in the place of the artifact. What discovery under `root` looks at is something else
that is there, and it does not look at the artifact itself. -/
structure Unseen (settings : Settings) (root : Path) (store : Store) (disk : Disk) : Prop where
  proper : disk.root.Names Path.IsEntry
  slot : ∀ target, disk.root.find? (store.place disk) ≠ some (.link target)
  outside : disk.resolve store.directory = disk.resolve root →
    ".db" ∉ settings.suffixes.map Text.lowercase
  leads : ∀ entries names, disk.scan root = .ok entries →
    Discovery.Qualifies disk root entries settings.suffixes settings.skippedNames
      (some store.directory) names →
    ∃ place node, disk.locate (root.below names) = .ok ⟨place, some node⟩ ∧ place ≠ store.place disk

variable {settings : Settings} {root : Path} {store : Store} {disk after : Disk}

/-- What a build of the files under `root` looks for. -/
def filterOf (settings : Settings) (store : Store) (disk : Disk) : Discovery.Filter :=
  ⟨settings.suffixes, settings.skippedNames, some (disk.resolve store.directory)⟩

theorem wants_fileName (unlisted : ".db" ∉ settings.suffixes.map Text.lowercase) :
    (filterOf settings store disk).wants (.ofString Store.fileName) = false := by
  have ends : (suffixOf (.ofString Store.fileName)).toString? = some ".db" := rfl
  have small : Text.lowercase ".db" = ".db" := Text.lowercase_of_isSmall (by decide)
  rw [Discovery.Filter.wants, ends, Option.any_some, small]
  exact decide_eq_false unlisted

theorem descends_current (proper : disk.root.Names Path.IsEntry) (hasCurrent : disk.HasCurrent) :
    Disk.Descends disk.current := by
  obtain ⟨below, found⟩ := hasCurrent
  intro name member
  have entry := proper.of_mem found member
  exact ⟨entry.named, entry.down⟩

namespace Unseen

theorem overlooks (unseen : Unseen settings root store disk) (hasCurrent : disk.HasCurrent)
    {home : List Text.RawText} {entries : Disk.Entries} (at_ : disk.Home root home entries)
    (scanned : disk.scan root = .ok entries) :
    Discovery.Overlooks (store.place disk) disk (filterOf settings store disk) root home entries where
  proper := unseen.proper
  current := descends_current unseen.proper hasCurrent
  descends := (Disk.descends_tidy _).concat (by decide) (by decide)
  shut := by
    refine ⟨_, _, rfl, rfl, fun same => wants_fileName (unseen.outside ?_)⟩
    rw [same, at_.resolve_eq (descends_current unseen.proper hasCurrent)]
  leads := by
    intro names reaches
    have same : filterOf settings store disk = ⟨settings.suffixes, settings.skippedNames,
        (some store.directory).map disk.resolve⟩ := rfl
    rw [same, Discovery.reaches_iff_qualifies] at reaches
    exact unseen.leads entries names scanned reaches

theorem discover_eq (unseen : Unseen settings root store disk) (sound : disk.Sound)
    (grows : Disk.Grows (store.place disk) disk after) (proper : after.root.Names Path.IsPart)
    {home : List Text.RawText} {entries : Disk.Entries} (at_ : disk.Home root home entries)
    (sayable : Disk.Sayable root) {found : Discovery.Found}
    (discovered : Discovery.discover disk root (filterOf settings store disk) = .ok found) :
    ∃ later, Discovery.discover after root (filterOf settings store disk) = .ok later ∧
      later.paths = found.paths ∧ ∀ path ∈ found.paths, after.read path = disk.read path := by
  obtain ⟨others, there⟩ := grows.home at_
  have scanned := at_.scan_eq sayable
  cases barred : disk.system.sealed home with
  | some cause =>
      have scannedLater := there.scan_eq sayable
      rw [grows.spares.system] at scannedLater
      rw [barred] at scanned scannedLater
      have none_ {other : Disk} (scanned : other.scan root = Disk.fail cause root) :
          ∃ notes, Discovery.discover other root (filterOf settings store disk) = .ok ⟨[], notes⟩ :=
        Discovery.discover_barred scanned
      obtain ⟨notes, nothing⟩ := none_ scanned
      obtain ⟨notesLater, nothingLater⟩ := none_ scannedLater
      cases discovered.symm.trans nothing
      exact ⟨_, nothingLater, rfl, fun _ member => absurd member List.not_mem_nil⟩
  | none =>
      rw [barred] at scanned
      have overlooks := unseen.overlooks sound.hasCurrent at_ scanned
      obtain ⟨later, again, same⟩ := overlooks.discover_eq grows at_ scanned proper discovered
      refine ⟨later, again, same, fun path member => ?_⟩
      have parts : entries.Names Path.IsPart := Disk.Entries.Names.of_find?
        (Disk.Entries.Names.mono (fun _ entry => entry.toIsPart) _ unseen.proper) at_.found
      obtain ⟨names, rfl, reaches, file⟩ :=
        ((Discovery.found_of_discover scanned parts discovered).2 path).mp member
      exact overlooks.read_eq grows sound reaches file

/-- The files under the root are found and read as before. -/
theorem view_eq (unseen : Unseen settings root store disk) (sound : disk.Sound)
    (grows : Disk.Grows (store.place disk) disk after) (proper : after.root.Names Path.IsPart)
    {below : Disk.Entries} (there : after.Home store.directory (disk.resolve store.directory) below)
    (isDir : disk.isDir root = .ok true) {files : List (String × Bytes)}
    (seen : view settings root store.directory disk = .ok files) :
    view settings root store.directory after = .ok files := by
  obtain ⟨home, entries, at_⟩ := Disk.home_of_isDir isDir
  obtain ⟨_, _, located, _⟩ := Disk.of_leadsTo isDir
  have sayable := Disk.sayable_of_locateBy located
  obtain ⟨others, at_after⟩ := grows.home at_
  obtain ⟨paths, found, seen⟩ := bind_eq_ok.mp seen
  rw [filesUnder, isDir, ok_mapError, ok_bind, if_pos rfl] at found
  obtain ⟨excluded, resolved, found⟩ := bind_eq_ok.mp found
  obtain ⟨first, discovered, found⟩ := bind_eq_ok.mp found
  cases seen
  cases found
  cases Discovery.exclude_eq resolved
  obtain ⟨later, again, same, read⟩ := unseen.discover_eq sound grows proper at_ sayable discovered
  have current := descends_current unseen.proper sound.hasCurrent
  have excludedLater := Discovery.exclude_home there (grows.spares.current ▸ current)
    (Discovery.hasNull_of_exclude resolved)
  rw [filterOf] at again
  rw [view, filesUnder, at_after.isDir_eq sayable, ok_mapError, ok_bind, if_pos rfl, excludedLater,
    ok_bind, again, ok_bind, ok_bind, same]
  refine congrArg Except.ok (List.filterMap_congr (fun path member => ?_))
  rw [read path member]

end Unseen

section

variable {call : Call} {made left : Disk} {home : List Text.RawText} {entries : Disk.Entries}
  {readings : Discovery.Readings} {previous : Option Stored} {result : BuildResult}

/-- Before it writes, a build has brought nothing but directories. -/
theorem Does.spares (does : Does call store made readings previous result left)
    (sound : call.world.disk.Sound) : Disk.Spares Disk.nowhere call.world.disk made ∧
      made.root.linkCount = call.world.disk.root.linkCount := by
  have spares := Store.prepare_spares sound store
  have count := Disk.makeDirs_linkCount sound.hasCurrent store.directory
  rw [← Store.prepare_disk] at count
  rw [does.prepared] at spares count
  exact ⟨spares, count⟩

/-- Where no link is in the place of the artifact, a build that returned put it where the path of its
directory is resolved to, and a file was there or nothing. -/
theorem Does.slot (does : Does call store made readings previous result left)
    (sound : call.world.disk.Sound) (fresh : store.Fresh call.world.disk call.details.nonce)
    (proper : call.world.disk.root.Names Path.IsEntry)
    (noLink : ∀ target,
      call.world.disk.root.find? (store.place call.world.disk) ≠ some (.link target))
    (at_ : made.Home store.directory home entries) :
    call.world.disk.resolve store.directory = home ∧
      Disk.IsLeaf (entries.get? Store.fileName) := by
  obtain ⟨spares, count⟩ := does.spares sound
  obtain ⟨tables, written⟩ := does.written fresh at_
  have resolved : call.world.disk.resolve store.directory = home := by
    rw [← Disk.resolve_congr spares.current count spares.link_iff,
      at_.resolve_eq (spares.current ▸ descends_current proper sound.hasCurrent)]
  refine ⟨resolved, ?_⟩
  cases held : entries.get? Store.fileName with
  | none => exact .none
  | some node =>
      cases node with
      | file serial => exact .file serial
      | dir below => exact absurd held (written.slot below)
      | link target =>
          rw [← Disk.Entries.find?_child at_.found, spares.link_iff] at held
          rw [Store.place, resolved] at noLink
          exact absurd held (noLink target)

/-- Such a build has brought nothing but directories and the artifact. -/
theorem Does.grows (does : Does call store made readings previous result left)
    (sound : call.world.disk.Sound) (fresh : store.Fresh call.world.disk call.details.nonce)
    (proper : call.world.disk.root.Names Path.IsEntry)
    (noLink : ∀ target,
      call.world.disk.root.find? (store.place call.world.disk) ≠ some (.link target)) :
    Disk.Grows (store.place call.world.disk) call.world.disk left ∧
      ∃ below, left.Home store.directory (call.world.disk.resolve store.directory) below := by
  obtain ⟨home, entries, at_⟩ := does.at_home sound.hasCurrent
  obtain ⟨resolved, leaf⟩ := does.slot sound fresh proper noLink at_
  obtain ⟨spares, count⟩ := does.spares sound
  obtain ⟨tables, written⟩ := does.written fresh at_
  have held : made.root.find? (home ++ [Text.RawText.ofString Store.fileName]) =
      entries.get? Store.fileName := Disk.Entries.find?_child at_.found _
  have grows : Disk.Grows (home ++ [Text.RawText.ofString Store.fileName]) made left := by
    rw [written.left]
    refine ⟨Store.spares_saved at_.found _ tables, held ▸ leaf, ?_, ?_⟩
    · rw [Store.saved, Disk.Entries.find?_child (Disk.Entries.find?_set_home at_.found _ _),
        Disk.Entries.get?_change_some]
      exact .file made.next
    · exact Disk.Entries.linkCount_set at_.found (Disk.Entries.linksOf_leaf leaf) rfl
  rw [Store.place, resolved]
  exact ⟨.of_made spares count grows, grows.home at_⟩

/-- A build that does not see its artifact leaves the files under its root as they were. -/
theorem Call.leaves_unseen {report : BuildReport} {after : World}
    (placed : call.settings.indexDirOf call.world.home call.root = .ok store.directory)
    (discovers : call.sources = none) (sound : call.world.disk.Sound)
    (fresh : store.Fresh call.world.disk call.details.nonce)
    (unseen : Unseen call.settings call.root store call.world.disk)
    (returned : call.run = (.ok report, after)) (proper : after.disk.root.Names Path.IsPart) :
    (∃ readings previous result tables,
      Leaves call store readings previous result tables after.disk) ∧
    view call.settings call.root store.directory after.disk =
      view call.settings call.root store.directory call.world.disk := by
  obtain ⟨made, readings, previous, result, does, _⟩ := Call.does placed returned
  obtain ⟨home, entries, at_⟩ := does.at_home sound.hasCurrent
  obtain ⟨_, leaf⟩ := does.slot sound fresh unseen.proper unseen.slot at_
  obtain ⟨grows, below, there⟩ := does.grows sound fresh unseen.proper unseen.slot
  have read := does.read
  rw [Call.readings, discovers] at read
  obtain ⟨files, seen, _⟩ := takes_of_gather read
  constructor
  · obtain ⟨readings, previous, result, tables, leaves, _⟩ :=
      Call.leaves placed does.prepared at_ leaf (does.unused fresh at_) returned
    exact ⟨readings, previous, result, tables, leaves⟩
  · rw [unseen.view_eq sound grows proper there (gather_eq_ok.mp read).1 seen, seen]

end

end Service

end TokenSearch
