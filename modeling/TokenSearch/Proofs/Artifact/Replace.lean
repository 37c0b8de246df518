import TokenSearch.Proofs.Artifact.Vacancy

namespace TokenSearch.Store

/-! Any file in the place of the artifact. It can be opened, and it does not stand in the way of a
save that would succeed without it. -/

open Text Disk

variable {store : Store} {disk without : Disk} {home : List RawText} {entries : Entries}
  {record : Record} {nonce : String}

theorem Home.located (at_ : disk.Home store.directory home entries) (sayable : Sayable store.path) :
    disk.locate store.directory = .ok ⟨home, some (.dir entries)⟩ := by
  obtain ⟨links, entered⟩ := at_.entered
  have above : Sayable store.directory := sayable.of_child fileName_plain.filled (by decide)
  rw [locate, locateBy_of_sayable above, walk_target_of_enter entered, at_.found]

theorem Home.prepared (at_ : disk.Home store.directory home entries) (sayable : Sayable store.path) :
    store.prepare disk = (.ok (), disk) := by
  have above : Sayable store.directory := sayable.of_child fileName_plain.filled (by decide)
  rw [prepare, at_.makeDirs_eq above]

theorem begin_eq_ok (at_ : disk.Home store.directory home entries)
    (fresh : entries.get? (draftName nonce) = none) (plain : Plain (draftName nonce))
    (sayable : Sayable (store.draft nonce))
    (reachable : isReachable disk store.directory draftWidth = true) :
    ∃ begun, store.begin disk nonce = .ok begun := by
  have located := at_.locateBy_child .writing plain (fresh ▸ .none) sayable
  have written : disk.write (store.draft nonce) ⟨.bytes [], 0⟩ =
      .ok (disk.create (home ++ [draftName nonce]) ⟨.bytes [], 0⟩) := by
    rw [Disk.write, draft_eq, located, fresh]
    rfl
  refine ⟨disk.create (home ++ [draftName nonce]) ⟨.bytes [], 0⟩, ?_⟩
  simp only [begin, written, reachable, if_true]

theorem begin_of_install {index : Index} {skipped : List SkippedFile} {details : Details}
    {path : Path} {after : Disk}
    (installed : store.install disk index skipped details = (.ok path, after)) :
    ∃ begun, store.begin disk details.nonce = .ok begun := by
  obtain ⟨begun, _, started, _⟩ := phases_of_install installed
  exact ⟨begun, started⟩

/-- The file under the name of the artifact is taken away, whatever it holds. -/
structure Cleared (store : Store) (disk without : Disk) (home : List RawText) (entries : Entries)
    (serial : Nat) : Prop where
  at_ : disk.Home store.directory home entries
  held : entries.get? fileName = some (.file serial)
  removed : disk.remove store.path = .ok without
  gone : (entries.erase fileName).get? fileName = none

namespace Cleared

variable {serial : Nat}

theorem without_eq (cleared : Cleared store disk without home entries serial) :
    without = disk.setNode (home ++ [RawText.ofString fileName]) none ∧ Sayable store.path := by
  obtain ⟨place, located, removed⟩ := Data.bind_eq_ok.mp cleared.removed
  have sayable := sayable_of_locateBy located
  have leaf : IsLeaf (entries.get? fileName) := cleared.held ▸ .file serial
  rw [Disk.locateLink, path, cleared.at_.locateBy_child .entry fileName_plain leaf sayable] at located
  cases located
  rw [cleared.held] at removed
  cases removed
  exact ⟨rfl, sayable⟩

theorem root_eq (cleared : Cleared store disk without home entries serial) :
    without.root = disk.root.set none (home ++ [RawText.ofString fileName]) := by
  rw [cleared.without_eq.1, Disk.setNode]

theorem current_eq (cleared : Cleared store disk without home entries serial) :
    without.current = disk.current := by
  rw [cleared.without_eq.1, Disk.setNode]

theorem home_eq (cleared : Cleared store disk without home entries serial) :
    without.Home store.directory home (entries.erase fileName) := by
  have leaf : IsLeaf (entries.get? fileName) := cleared.held ▸ .file serial
  exact cleared.at_.set_leaf leaf cleared.root_eq cleared.current_eq

theorem resolve_eq (cleared : Cleared store disk without home entries serial) (other : Path) :
    without.resolve other = disk.resolve other := by
  have leaf : IsLeaf (entries.get? fileName) := cleared.held ▸ .file serial
  have gone : IsLeaf ((entries.change fileName none).get? fileName) := .inl cleared.gone
  exact cleared.at_.resolve_set_leaf leaf .none gone cleared.root_eq cleared.current_eq other

theorem occupied (cleared : Cleared store disk without home entries serial)
    (reachable : isReachable disk store.directory (RawText.ofString fileName).byteCount = true) :
    Occupied store disk home entries serial :=
  ⟨cleared.at_, cleared.held, cleared.without_eq.2, reachable⟩

/-- The file does not stand in the way of a save. -/
theorem writable (cleared : Cleared store disk without home entries serial)
    (fresh : entries.get? (draftName nonce) = none)
    (begins : ∃ begun, store.begin without nonce = .ok begun) :
    Writable store disk nonce disk home entries ∧ Occupied store disk home entries serial := by
  obtain ⟨begun, started⟩ := begins
  have unused : (entries.erase fileName).get? (draftName nonce) = none := by
    rw [Entries.get?_erase_of_ne _ (draftName_ne nonce), fresh]
  obtain ⟨_, plain, sayable, reachable⟩ := of_begin cleared.home_eq unused started
  have above := cleared.without_eq.2
  rw [isReachable, cleared.resolve_eq, ← isReachable] at reachable
  constructor
  · refine ⟨Home.prepared cleared.at_ above, Home.located cleared.at_ above,
      cleared.held ▸ .file _, fresh, ?_⟩
    exact begin_eq_ok cleared.at_ fresh plain sayable reachable
  · apply cleared.occupied
    have width : (RawText.ofString fileName).byteCount ≤ draftWidth := by decide
    rw [isReachable, decide_eq_true_iff] at reachable
    rw [isReachable]
    exact decide_eq_true (by omega)

/-- Without the file there is no artifact. -/
theorem load_without (cleared : Cleared store disk without home entries serial) :
    store.load without = .error (.indexMissing store.path) := by
  have located := cleared.home_eq.locateBy_child .target fileName_plain (cleared.gone ▸ .none)
    cleared.without_eq.2
  have missing : store.isPresent without = .ok false := by
    rw [isPresent, Disk.isFile, Disk.leadsTo, Disk.stat, Disk.locate, path, located, cleared.gone]
    rfl
  rw [load, missing, Data.ok_bind]
  rfl

end Cleared

end TokenSearch.Store
