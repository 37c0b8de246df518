import TokenSearch.Proofs.Artifact.Vacancy
import TokenSearch.Proofs.Disk.Spare

namespace TokenSearch.Store

/-! What a save that is broken off leaves lying about, and that it is swept up: the draft, and the
journal that the database may keep beside it. -/

open Text Disk

def journalName (nonce : String) : RawText := draftName nonce ++ RawText.ofString "-journal"

def journal (store : Store) (nonce : String) : Path := store.directory.child (journalName nonce)

theorem journalName_points (nonce : String) :
    (journalName nonce).points = (draftName nonce).points ++ (RawText.ofString "-journal").points :=
  rfl

theorem journalName_named (nonce : String) : Path.isName (journalName nonce) = true := by
  have other : journalName nonce ≠ Path.here :=
    ne_of_points (by simp [journalName_points, draftName_points, fileName, Path.here,
      RawText.ofString])
  simp [Path.isName, RawText.isEmpty, journalName_points, RawText.ofString, other]

theorem journalName_down (nonce : String) : journalName nonce ≠ Path.above :=
  ne_of_points (by simp [journalName_points, draftName_points, fileName, Path.above,
    RawText.ofString])

theorem journalName_ne (nonce : String) : journalName nonce ≠ draftName nonce :=
  ne_of_points (by simp [journalName_points, RawText.ofString])

/-- Leaves a file behind, if there is one and it can be written. -/
def leave (disk : Disk) (path : Path) : Option Record → Disk
  | none => disk
  | some record =>
      match disk.write path record with
      | .ok after => after
      | .error _ => disk

/-- Removes a draft and its journal, as far as they are there. -/
def sweep (store : Store) (disk : Disk) (nonce : String) : Disk :=
  discard (discard disk (store.draft nonce)) (store.journal nonce)

variable {store : Store} {disk after : Disk} {home : List RawText} {entries : Entries}
  {nonce : String} {name : RawText}

theorem leave_cases (at_ : disk.Home store.directory home entries)
    (fresh : entries.get? name = none) (named : Path.isName name = true)
    (down : name ≠ Path.above) (left : Option Record) :
    leave disk (store.directory.child name) left = disk ∨
      Added disk home name disk.next (leave disk (store.directory.child name) left) ∧
        Plain name ∧ Sayable (store.directory.child name) := by
  cases left with
  | none => exact .inl rfl
  | some record =>
      simp only [leave]
      cases written : disk.write (store.directory.child name) record with
      | error error => exact .inl rfl
      | ok next =>
          obtain ⟨rfl, plain, sayable⟩ := of_write at_ fresh named down written
          exact .inr ⟨.create disk home name record, plain, sayable⟩

/-- Of two new files, the one that came first is thrown away, and the other one is left. -/
theorem Added.discard_first {first : Disk} {serial : Nat} {second : RawText}
    (one : Added disk home name serial first) (two : Added first home second first.next after)
    (at_ : disk.Home store.directory home entries) (fresh : entries.get? name = none)
    (free : entries.get? second = none) (differs : second ≠ name) (plain : Plain name)
    (sayable : Sayable (store.directory.child name)) :
    Added disk home second first.next (discard after (store.directory.child name)) := by
  have beside := one.home_eq at_ fresh
  have still : (entries.put name (.file serial)).get? second = none := by
    rw [Entries.get?_put, if_neg (Ne.symm differs), free]
  have both := two.home_eq beside still
  have held : ((entries.put name (.file serial)).put second (.file first.next)).get? name =
      some (.file serial) := by
    rw [Entries.get?_put, if_neg differs, Added.held]
  rw [Added.discard_eq both held plain sayable]
  refine ⟨?_, two.current.trans one.current, Nat.le_trans one.next two.next, fun old less => ?_,
    two.system.trans one.system⟩
  · rw [Disk.setNode, two.root, one.root]
    exact Entries.set_moved at_.found differs fresh (.file serial) (.file first.next)
  · exact (two.records old (Nat.lt_of_lt_of_le less one.next)).trans (one.records old less)

theorem Drafted.leave {reached : Disk} (drafted : Drafted store disk home nonce reached)
    (at_ : disk.Home store.directory home entries) (fresh : entries.get? (draftName nonce) = none)
    (draft : Option Record) :
    Drafted store disk home nonce (Store.leave reached (store.draft nonce) draft) := by
  cases draft with
  | none => exact drafted
  | some record =>
      simp only [Store.leave]
      cases written : reached.write (store.draft nonce) record with
      | error error => exact drafted
      | ok next => exact drafted.write at_ fresh written

/-- Nothing is left of a draft and a journal that are swept up, whichever of them were written. -/
theorem Drafted.kept_sweep {reached : Disk} (drafted : Drafted store disk home nonce reached)
    (at_ : disk.Home store.directory home entries)
    (fresh : entries.get? (draftName nonce) = none) (free : entries.get? (journalName nonce) = none)
    (journal : Option Record) :
    Kept disk (store.sweep (Store.leave reached (store.journal nonce) journal) nonce) := by
  have journalAbsent {other : Disk} (there : other.Home store.directory home entries) :
      discard other (store.journal nonce) = other :=
    discard_absent there free (journalName_named nonce) (journalName_down nonce)
  rcases drafted with rfl | ⟨first, plain, sayable⟩
  · rcases leave_cases at_ free (journalName_named nonce) (journalName_down nonce) journal with
      noJournal | ⟨second, plain, sayable⟩
    · rw [Store.journal, noJournal, sweep, draft_eq,
        discard_absent at_ fresh (draftName_named nonce) (draftName_down nonce), journalAbsent at_]
      exact .refl reached
    · have still : (entries.put (journalName nonce) (.file reached.next)).get? (draftName nonce) =
          none := by rw [Entries.get?_put, if_neg (journalName_ne nonce), fresh]
      rw [sweep, draft_eq, Store.journal, discard_absent (second.home_eq at_ free) still
        (draftName_named nonce) (draftName_down nonce)]
      exact second.kept_discard at_ free plain sayable
  · have beside := first.home_eq at_ fresh
    have still : (entries.put (draftName nonce) (.file disk.next)).get? (journalName nonce) =
        none := by rw [Entries.get?_put, if_neg (Ne.symm (journalName_ne nonce)), free]
    rcases leave_cases beside still (journalName_named nonce) (journalName_down nonce) journal with
      noJournal | ⟨second, plainToo, sayableToo⟩
    · have kept := first.kept_discard at_ fresh plain sayable
      rw [Store.journal, noJournal, sweep, draft_eq, journalAbsent (kept.home_eq at_)]
      exact kept
    · rw [Store.journal, sweep, draft_eq]
      exact (first.discard_first second at_ fresh free (journalName_ne nonce) plain
        sayable).kept_discard at_ free plainToo sayableToo

theorem Kept.spares (kept : Kept disk after) : Spares nowhere disk after where
  current := kept.current
  next := kept.next
  places := fun place _ => .inl (by rw [kept.root])
  records := kept.records
  system := kept.system

theorem Kept.stat_eq (kept : Kept disk after) (path : Path) : after.stat path = disk.stat path := by
  have located : after.locate path = disk.locate path := by
    change after.locateBy .target path = disk.locateBy .target path
    rw [locateBy, locateBy, origin, origin, kept.root, kept.current]
  rw [stat, stat, located]

/-- The same files under the same names make the same artifact. -/
theorem Kept.contentAt_eq (kept : Kept disk after) (sound : disk.Sound) (path : Path) :
    contentAt after path = contentAt disk path := by
  have opened : after.openFile path = disk.openFile path := by
    rw [openFile, openFile, kept.stat_eq]
  have reached : isReachable after path.parent path.name.byteCount =
      isReachable disk path.parent path.name.byteCount := by
    rw [isReachable, isReachable, resolve, resolve, origin, origin, kept.root, kept.current]
  have connected : connect after path = connect disk path := by
    rw [connect, connect, opened, reached]
  rw [contentAt, contentAt, connected]
  cases held : connect disk path with
  | error fault => rfl
  | ok serial =>
      obtain ⟨place, located⟩ := locate_of_openFile (connect_eq_ok.mp held).1
      have there := walk_found (walk_of_locateBy located)
      have same := kept.records serial (sound.numbered place serial there)
      rw [Data.ok_bind, Data.ok_bind, contentOf, contentOf, Disk.body, Disk.body, same]

theorem Kept.load_eq (kept : Kept disk after) (sound : disk.Sound) :
    store.load after = store.load disk := by
  have present : store.isPresent after = store.isPresent disk := by
    simp only [isPresent, isFile, leadsTo, kept.stat_eq]
  rw [load, load, present, kept.contentAt_eq sound]

end TokenSearch.Store
