import TokenSearch.Artifact.Store
import TokenSearch.Proofs.Data.Result
import TokenSearch.Proofs.Disk.Home

namespace TokenSearch.Store

/-! Saving an index: what it leaves on the disk, whether it fails or not. -/

open Text Disk

theorem fileName_plain : Plain (RawText.ofString fileName) where
  named := by decide
  down := by decide
  short := by decide

def draftName (nonce : String) : RawText := "." ++ fileName ++ "." ++ nonce ++ ".tmp"

theorem draftName_points (nonce : String) :
    (draftName nonce).points = (RawText.ofString ".").points ++ (RawText.ofString fileName).points ++
      (RawText.ofString ".").points ++ (RawText.ofString nonce).points ++
      (RawText.ofString ".tmp").points := rfl

theorem ne_of_points {left right : RawText} (differ : left.points ≠ right.points) : left ≠ right :=
  fun same => differ (congrArg RawText.points same)

theorem draftName_named (nonce : String) : Path.isName (draftName nonce) = true := by
  have other : draftName nonce ≠ Path.here :=
    ne_of_points (by simp [draftName_points, fileName, Path.here, RawText.ofString])
  simp [Path.isName, RawText.isEmpty, draftName_points, fileName, RawText.ofString, other]

theorem draftName_down (nonce : String) : draftName nonce ≠ Path.above :=
  ne_of_points (by simp [draftName_points, fileName, Path.above, RawText.ofString])

theorem draftName_ne (nonce : String) : RawText.ofString fileName ≠ draftName nonce :=
  ne_of_points (by simp [draftName_points, fileName, RawText.ofString])

theorem fileName_shorter (nonce : String) :
    (RawText.ofString fileName).byteCount ≤ (draftName nonce).byteCount := by
  have split : draftName nonce = ⟨(RawText.ofString ".").points ++
      ((RawText.ofString fileName).points ++ ((RawText.ofString ".").points ++
        ((RawText.ofString nonce).points ++ (RawText.ofString ".tmp").points)))⟩ := by
    rw [← List.append_assoc, ← List.append_assoc, ← List.append_assoc, ← draftName_points]
  rw [split, Path.byteCount_append, Path.byteCount_append]
  exact Nat.le_add_left_of_le (Nat.le_add_right _ _)

variable {store : Store} {disk : Disk} {home : List RawText} {entries : Entries} {nonce : String}

theorem draft_eq (store : Store) (nonce : String) :
    store.draft nonce = store.directory.child (draftName nonce) := rfl

theorem sayable_path (sayable : Sayable (store.draft nonce)) : Sayable store.path := by
  rw [draft_eq] at sayable
  have noNull := sayable.noNull
  have short := sayable.short
  have filled : (draftName nonce).points ≠ [] := by
    simp [draftName_points, fileName, RawText.ofString]
  rw [Path.hasNull_child, Bool.or_eq_false_iff] at noNull
  rw [Path.byteCount_child _ filled] at short
  refine ⟨?_, ?_⟩
  · rw [path, Path.hasNull_child, noNull.1]
    decide
  · rw [path, Path.byteCount_child _ fileName_plain.filled]
    have shorter := fileName_shorter nonce
    omega

theorem of_write (at_ : disk.Home store.directory home entries) {name : RawText}
    (fresh : entries.get? name = none) (named : Path.isName name = true) (down : name ≠ Path.above)
    {record : Record} {after : Disk}
    (written : disk.write (store.directory.child name) record = .ok after) :
    after = disk.create (home ++ [name]) record ∧ Plain name ∧
      Sayable (store.directory.child name) := by
  obtain ⟨place, located, made⟩ := Data.bind_eq_ok.mp written
  have sayable := sayable_of_locateBy located
  have plain := at_.plain_of_locateBy named down located
  have found := at_.locateBy_child .writing plain (fresh ▸ .none) sayable
  rw [found, Except.ok.injEq] at located
  subst located
  rw [fresh] at made
  cases made
  exact ⟨rfl, plain, sayable⟩

/-- A draft that was begun is an empty file under a free name of the directory. -/
theorem of_begin (at_ : disk.Home store.directory home entries)
    (fresh : entries.get? (draftName nonce) = none) {begun : Disk}
    (started : store.begin disk nonce = .ok begun) :
    begun = disk.create (home ++ [draftName nonce]) ⟨.bytes [], 0⟩ ∧
      Plain (draftName nonce) ∧ Sayable (store.draft nonce) ∧
      isReachable disk store.directory draftWidth = true := by
  unfold begin at started
  simp only at started
  cases written : disk.write (store.draft nonce) ⟨.bytes [], 0⟩ with
  | error error => simp [written] at started
  | ok next =>
      rw [written] at started
      simp only at started
      split at started
      · rename_i reachable
        cases started
        obtain ⟨made, plain, sayable⟩ :=
          of_write at_ fresh (draftName_named nonce) (draftName_down nonce) written
        exact ⟨made, plain, sayable, reachable⟩
      · cases started

/-- The same files under the same names. Contents to which no name leads may have been added. -/
structure Kept (disk after : Disk) : Prop where
  root : after.root = disk.root
  current : after.current = disk.current
  next : disk.next ≤ after.next
  records : ∀ serial, serial < disk.next → after.record? serial = disk.record? serial
  system : after.system = disk.system

theorem Kept.refl (disk : Disk) : Kept disk disk :=
  ⟨rfl, rfl, Nat.le_refl _, fun _ _ => rfl, rfl⟩

theorem Kept.home_eq {after : Disk} (kept : Kept disk after)
    (at_ : disk.Home store.directory home entries) : after.Home store.directory home entries := by
  obtain ⟨entered, found⟩ := at_
  have origin : after.origin store.directory = disk.origin store.directory := by
    rw [Disk.origin, Disk.origin, kept.current]
  exact ⟨by rw [origin, kept.root]; exact entered, by rw [kept.root]; exact found⟩

theorem record?_create_of_lt {serial : Nat} (old : serial < disk.next) (names : List RawText)
    (record : Record) : (disk.create names record).record? serial = disk.record? serial := by
  have differs : disk.next ≠ serial := by omega
  rw [Disk.record?, Disk.create, Data.Assoc.get?_put, if_neg differs]
  rfl

/-- A new file came under a name of the directory, and all else is as it was. -/
structure Added (disk : Disk) (home : List RawText) (name : RawText) (serial : Nat)
    (written : Disk) : Prop where
  root : written.root = disk.root.set (some (.file serial)) (home ++ [name])
  current : written.current = disk.current
  next : disk.next ≤ written.next
  records : ∀ old, old < disk.next → written.record? old = disk.record? old
  system : written.system = disk.system

namespace Added

variable {name : RawText} {serial : Nat} {written : Disk}

theorem create (disk : Disk) (home : List RawText) (name : RawText) (record : Record) :
    Added disk home name disk.next (disk.create (home ++ [name]) record) where
  root := rfl
  current := rfl
  next := Nat.le_succ _
  records := fun _ old => record?_create_of_lt old (home ++ [name]) record
  system := rfl

theorem overwrite (added : Added disk home name disk.next written) (record : Record) :
    Added disk home name disk.next (written.overwrite disk.next record) where
  root := added.root
  current := added.current
  next := added.next
  records := by
    intro old less
    rw [← added.records old less, Disk.record?, Disk.overwrite, Data.Assoc.get?_put,
      if_neg (by omega)]
    rfl
  system := added.system

theorem home_eq (added : Added disk home name serial written)
    (at_ : disk.Home store.directory home entries) (fresh : entries.get? name = none) :
    written.Home store.directory home (entries.put name (.file serial)) :=
  at_.set_file (fresh ▸ .none) added.root added.current

theorem held (entries : Entries) (name : RawText) (serial : Nat) :
    (entries.put name (.file serial)).get? name = some (.file serial) := by
  rw [Entries.get?_put, if_pos rfl]

theorem discard_eq (at_ : written.Home store.directory home entries)
    (held : entries.get? name = some (.file serial)) (plain : Plain name)
    (sayable : Sayable (store.directory.child name)) :
    discard written (store.directory.child name) = written.setNode (home ++ [name]) none := by
  have removed : written.remove (store.directory.child name) =
      .ok (written.setNode (home ++ [name]) none) := by
    rw [Disk.remove, at_.locateLink_child plain sayable, held]
    rfl
  rw [discard, removed]

theorem kept_discard (added : Added disk home name serial written)
    (at_ : disk.Home store.directory home entries) (fresh : entries.get? name = none)
    (plain : Plain name) (sayable : Sayable (store.directory.child name)) :
    Kept disk (discard written (store.directory.child name)) := by
  rw [discard_eq (added.home_eq at_ fresh) (held entries name serial) plain sayable]
  refine ⟨?_, added.current, added.next, added.records, added.system⟩
  rw [Disk.setNode, added.root]
  exact Entries.set_none_set_some at_.found fresh (.file serial)

end Added

/-- The artifact of a store: a file under its name that holds the given tables, and can be
reached. -/
structure Installed (store : Store) (disk : Disk) (home : List RawText) (entries : Entries)
    (serial : Nat) (tables : Artifact.Tables) : Prop where
  at_ : disk.Home store.directory home entries
  held : entries.get? fileName = some (.file serial)
  old : serial < disk.next
  body : disk.body serial = .artifact tables
  sayable : Sayable store.path
  reachable : isReachable disk store.directory (RawText.ofString fileName).byteCount = true

theorem locate_draft {written : Disk} (added : Added disk home (draftName nonce) disk.next written)
    (at_ : disk.Home store.directory home entries) (fresh : entries.get? (draftName nonce) = none)
    (plain : Plain (draftName nonce)) (sayable : Sayable (store.draft nonce)) :
    written.locateLink (store.draft nonce) =
        .ok ⟨home ++ [draftName nonce], some (.file disk.next)⟩ ∧
      written.locateLink store.path =
        .ok ⟨home ++ [RawText.ofString fileName], entries.get? fileName⟩ := by
  have moved := added.home_eq at_ fresh
  have target : (entries.put (draftName nonce) (.file disk.next)).get? fileName =
      entries.get? fileName := by rw [Entries.get?_put, if_neg (Ne.symm (draftName_ne nonce))]
  rw [draft_eq, path, moved.locateLink_child plain sayable,
    moved.locateLink_child fileName_plain (sayable_path sayable), Added.held, target]
  exact ⟨rfl, rfl⟩

/-- A draft takes the place of whatever is under the name of the artifact, except a directory. -/
theorem move_draft {written : Disk} (added : Added disk home (draftName nonce) disk.next written)
    (at_ : disk.Home store.directory home entries)
    (slot : ∀ below, entries.get? fileName ≠ some (.dir below))
    (fresh : entries.get? (draftName nonce) = none) (plain : Plain (draftName nonce))
    (sayable : Sayable (store.draft nonce)) :
    written.move (store.draft nonce) store.path =
      .ok { written with
        root := disk.root.set (some (.file disk.next)) (home ++ [RawText.ofString fileName]) } := by
  obtain ⟨old, new⟩ := locate_draft added at_ fresh plain sayable
  have tree := Entries.set_moved at_.found (draftName_ne nonce) fresh (.file disk.next)
    (.file disk.next)
  rw [← added.root] at tree
  rw [Disk.move, old, new]
  cases held : entries.get? fileName with
  | none => simp only [Disk.setNode, tree]
  | some node =>
      cases node with
      | file serial => simp only [Disk.setNode, tree]
      | link target => simp only [Disk.setNode, tree]
      | dir below => exact absurd held (slot below)

theorem move_refused {written : Disk} (added : Added disk home (draftName nonce) disk.next written)
    (at_ : disk.Home store.directory home entries) {below : Entries}
    (taken : entries.get? fileName = some (.dir below))
    (fresh : entries.get? (draftName nonce) = none) (plain : Plain (draftName nonce))
    (sayable : Sayable (store.draft nonce)) :
    ∃ error, written.move (store.draft nonce) store.path = .error error := by
  obtain ⟨old, new⟩ := locate_draft added at_ fresh plain sayable
  exact ⟨_, by simp only [Disk.move, old, new, taken]; rfl⟩

/-- The disk behind a save: the artifact is a new file under its name. -/
def saved (disk : Disk) (home : List RawText) (nonce : String) (tables : Artifact.Tables) : Disk :=
  { (disk.create (home ++ [draftName nonce]) ⟨.bytes [], 0⟩).overwrite disk.next
      ⟨.artifact tables, 0⟩ with
    root := disk.root.set (some (.file disk.next)) (home ++ [RawText.ofString fileName]) }

/-- With a file under the name of the artifact, the path of the directory leads where it led. -/
structure Firm (store : Store) (disk : Disk) (home : List RawText) (entries : Entries) : Prop where
  at_ : (disk.setNode (home ++ [RawText.ofString fileName]) (some (.file disk.next))).Home
    store.directory home (entries.put fileName (.file disk.next))
  resolved : (disk.setNode (home ++ [RawText.ofString fileName]) (some (.file disk.next))).resolve
    store.directory = disk.resolve store.directory

theorem firm_of_leaf (at_ : disk.Home store.directory home entries)
    (slot : IsLeaf (entries.get? fileName)) : Firm store disk home entries := by
  have changed : (disk.setNode (home ++ [RawText.ofString fileName])
      (some (.file disk.next))).root = disk.root.set (some (.file disk.next))
        (home ++ [RawText.ofString fileName]) := rfl
  exact ⟨at_.set_file slot changed rfl, at_.resolve_set_file slot changed rfl store.directory⟩

theorem body_saved (disk : Disk) (home : List RawText) (nonce : String)
    (tables : Artifact.Tables) : (saved disk home nonce tables).body disk.next = .artifact tables := by
  rw [Disk.body, Disk.record?, saved, Disk.overwrite, Data.Assoc.get?_put, if_pos rfl]
  rfl

/-- In the directory at `home`, the file under the name of the artifact holds the tables. -/
def Deposit (disk : Disk) (home : List RawText) (tables : Artifact.Tables) : Prop :=
  ∃ entries serial, disk.root.find? home = some (.dir entries) ∧
    entries.get? fileName = some (.file serial) ∧ disk.body serial = .artifact tables

theorem deposit_saved (at_ : disk.Home store.directory home entries) (nonce : String)
    (tables : Artifact.Tables) : Deposit (saved disk home nonce tables) home tables := by
  refine ⟨entries.put fileName (.file disk.next), disk.next, ?_, ?_, body_saved ..⟩
  · exact Entries.find?_set_home at_.found fileName (some (.file disk.next))
  · rw [Entries.get?_put, if_pos rfl]

/-- What was saved is installed where the path of the directory still leads to it. -/
theorem installed_of_home {tables : Artifact.Tables}
    (at_ : (saved disk home nonce tables).Home store.directory home
      (entries.put fileName (.file disk.next)))
    (sayable : Sayable store.path)
    (reachable : isReachable (saved disk home nonce tables) store.directory
      (RawText.ofString fileName).byteCount = true) :
    Installed store (saved disk home nonce tables) home (entries.put fileName (.file disk.next))
      disk.next tables where
  at_ := at_
  held := by rw [Entries.get?_put, if_pos rfl]
  old := Nat.lt_succ_self _
  body := body_saved ..
  sayable := sayable
  reachable := reachable

theorem installed_saved (firm : Firm store disk home entries)
    (sayable : Sayable (store.draft nonce))
    (reachable : isReachable disk store.directory draftWidth = true) (tables : Artifact.Tables) :
    Installed store (saved disk home nonce tables) home (entries.put fileName (.file disk.next))
      disk.next tables := by
  refine installed_of_home ⟨firm.at_.entered, firm.at_.found⟩ (sayable_path sayable) ?_
  have width : (RawText.ofString fileName).byteCount ≤ draftWidth := by decide
  have same : (saved disk home nonce tables).resolve store.directory =
      disk.resolve store.directory := firm.resolved
  rw [isReachable, decide_eq_true_iff] at reachable
  rw [isReachable, same]
  exact decide_eq_true (by omega)

/-- A draft that was begun, and then filled in its place. -/
def filled (disk : Disk) (home : List RawText) (nonce : String) (tables : Artifact.Tables) : Disk :=
  (disk.create (home ++ [draftName nonce]) ⟨.bytes [], 0⟩).overwrite disk.next ⟨.artifact tables, 0⟩

theorem added_filled (disk : Disk) (home : List RawText) (nonce : String)
    (tables : Artifact.Tables) :
    Added disk home (draftName nonce) disk.next (filled disk home nonce tables) :=
  (Added.create disk home (draftName nonce) ⟨.bytes [], 0⟩).overwrite ⟨.artifact tables, 0⟩

theorem write_draft (at_ : disk.Home store.directory home entries)
    (fresh : entries.get? (draftName nonce) = none) (plain : Plain (draftName nonce))
    (sayable : Sayable (store.draft nonce)) (tables : Artifact.Tables) :
    (disk.create (home ++ [draftName nonce]) ⟨.bytes [], 0⟩).write (store.draft nonce)
        ⟨.artifact tables, 0⟩ = .ok (filled disk home nonce tables) := by
  have begun := (Added.create disk home (draftName nonce) ⟨.bytes [], 0⟩).home_eq at_ fresh
  have located := begun.locateBy_child .writing plain (Added.held _ _ _ ▸ .file _) sayable
  rw [Added.held] at located
  rw [Disk.write, draft_eq, located]
  rfl

theorem discard_absent (at_ : disk.Home store.directory home entries)
    (absent : entries.get? name = none) (named : Path.isName name = true)
    (down : name ≠ Path.above) : discard disk (store.directory.child name) = disk := by
  cases located : disk.locateLink (store.directory.child name) with
  | error error =>
      simp only [discard, Disk.remove, located]
      rfl
  | ok place =>
      have plain := at_.plain_of_locateBy named down located
      have found := at_.locateLink_child plain (sayable_of_locateBy located)
      rw [absent] at found
      simp only [discard, Disk.remove, found]
      rfl

/-- The phases follow one after the other. -/
theorem Phase.all_foldlM (go : Disk → Phase → Except (Fault × Disk) Disk) (disk : Disk) :
    Phase.all.foldlM go disk = (do go (← go (← go disk .opening) .filling) .moving) := by
  simp only [Phase.all, List.foldlM_cons, List.foldlM_nil, bind_pure]

/-- What was installed went through every phase. -/
theorem phases_of_install {index : Index} {skipped : List SkippedFile} {details : Details}
    {path : Path} {after : Disk}
    (wrote : store.install disk index skipped details = (.ok path, after)) :
    ∃ begun full, store.begin disk details.nonce = .ok begun ∧
      store.perform index skipped details begun .filling = .ok full ∧
      store.perform index skipped details full .moving = .ok after ∧ path = store.path := by
  rw [install, installBy, Phase.all_foldlM] at wrote
  split at wrote
  · rename_i installed gone
    cases wrote
    obtain ⟨begun, started, gone⟩ := Data.bind_eq_ok.mp gone
    obtain ⟨full, filled, renamed⟩ := Data.bind_eq_ok.mp gone
    exact ⟨begun, full, Data.mapError_eq_ok.mp started, Data.mapError_eq_ok.mp filled,
      Data.mapError_eq_ok.mp renamed, rfl⟩
  · cases wrote

theorem install_eq_ok {begun : Disk} {index : Index} {skipped : List SkippedFile}
    {details : Details} {tables : Artifact.Tables}
    (started : store.begin disk details.nonce = .ok begun)
    (encoded : Artifact.encode (store.draft details.nonce) index skipped details.root details.created =
      .ok tables)
    (at_ : disk.Home store.directory home entries)
    (slot : ∀ below, entries.get? fileName ≠ some (.dir below))
    (fresh : entries.get? (draftName details.nonce) = none) :
    store.install disk index skipped details =
      (.ok store.path, saved disk home details.nonce tables) := by
  obtain ⟨rfl, plain, sayable, _⟩ := of_begin at_ fresh started
  have written := write_draft at_ fresh plain sayable tables
  have moved := move_draft (added_filled disk home details.nonce tables) at_ slot fresh plain sayable
  simp only [install, installBy, Phase.all_foldlM, perform, started, encoded, written, moved,
    Data.ok_mapError, Data.ok_bind]
  rfl

/-- A place where an artifact can be written: the directory is there or can be made, nothing in it
has the name of the draft, and nothing but a file has that of the artifact. -/
structure Writable (store : Store) (disk : Disk) (nonce : String) (made : Disk)
    (home : List RawText) (entries : Entries) : Prop where
  ready : store.prepare disk = (.ok (), made)
  located : made.locate store.directory = .ok ⟨home, some (.dir entries)⟩
  slot : IsLeaf (entries.get? fileName)
  fresh : entries.get? (draftName nonce) = none
  begins : ∃ begun, store.begin made nonce = .ok begun

theorem Writable.at_ {made : Disk} (writable : Writable store disk nonce made home entries) :
    made.Home store.directory home entries := home_of_locate writable.located

theorem Writable.save_eq {made : Disk} {index : Index} {skipped : List SkippedFile}
    {details : Details} {tables : Artifact.Tables}
    (writable : Writable store disk details.nonce made home entries)
    (encoded : Artifact.encode (store.draft details.nonce) index skipped details.root details.created =
      .ok tables) :
    store.save disk index skipped details = (.ok store.path, saved made home details.nonce tables) ∧
      Installed store (saved made home details.nonce tables) home
        (entries.put fileName (.file made.next)) made.next tables := by
  obtain ⟨begun, started⟩ := writable.begins
  obtain ⟨_, _, sayable, reachable⟩ := of_begin writable.at_ writable.fresh started
  refine ⟨?_, installed_saved (firm_of_leaf writable.at_ writable.slot) sayable reachable tables⟩
  rw [save, within, writable.ready]
  exact install_eq_ok started encoded writable.at_ writable.slot.ne_dir writable.fresh

/-- A save that came through: its draft is now the file under the name of the artifact. -/
structure Written (store : Store) (disk : Disk) (home : List RawText) (entries : Entries)
    (index : Index) (skipped : List SkippedFile) (details : Details) (tables : Artifact.Tables)
    (after : Disk) : Prop where
  encoded : Artifact.encode (store.draft details.nonce) index skipped details.root details.created =
    .ok tables
  left : after = saved disk home details.nonce tables
  slot : ∀ below, entries.get? fileName ≠ some (.dir below)
  sayable : Sayable (store.draft details.nonce)
  reachable : isReachable disk store.directory draftWidth = true

theorem Written.installed {index : Index} {skipped : List SkippedFile} {details : Details}
    {tables : Artifact.Tables} {after : Disk}
    (written : Written store disk home entries index skipped details tables after)
    (firm : Firm store disk home entries) :
    Installed store after home (entries.put fileName (.file disk.next)) disk.next tables := by
  rw [written.left]
  exact installed_saved firm written.sayable written.reachable tables

theorem write_of_begin {begun : Disk} (started : store.begin disk nonce = .ok begun) :
    disk.write (store.draft nonce) ⟨.bytes [], 0⟩ = .ok begun := by
  unfold begin at started
  simp only at started
  split at started
  · split at started
    · cases started
      assumption
    · cases started
  · cases started

/-- Nothing was done to a disk but that a draft may lie in the directory. -/
def Drafted (store : Store) (disk : Disk) (home : List RawText) (nonce : String)
    (reached : Disk) : Prop :=
  reached = disk ∨ Added disk home (draftName nonce) disk.next reached ∧
    Plain (draftName nonce) ∧ Sayable (store.draft nonce)

namespace Drafted

variable {reached next : Disk}

theorem write (drafted : Drafted store disk home nonce reached)
    (at_ : disk.Home store.directory home entries) (fresh : entries.get? (draftName nonce) = none)
    {record : Record} (written : reached.write (store.draft nonce) record = .ok next) :
    Drafted store disk home nonce next := by
  rcases drafted with rfl | ⟨added, plain, sayable⟩
  · obtain ⟨rfl, plain, sayable⟩ :=
      of_write at_ fresh (draftName_named nonce) (draftName_down nonce) written
    exact .inr ⟨.create .., plain, sayable⟩
  · have located := (added.home_eq at_ fresh).locateBy_child .writing plain
      (Added.held _ _ _ ▸ .file _) sayable
    rw [Added.held] at located
    rw [Disk.write, draft_eq, located] at written
    cases written
    exact .inr ⟨added.overwrite record, plain, sayable⟩

/-- Every phase but the last one does no more than write the draft. -/
theorem perform {details : Details} {index : Index} {skipped : List SkippedFile} {phase : Phase}
    (drafted : Drafted store disk home details.nonce reached)
    (at_ : disk.Home store.directory home entries)
    (fresh : entries.get? (draftName details.nonce) = none) (early : phase ≠ .moving)
    (done : store.perform index skipped details reached phase = .ok next) :
    Drafted store disk home details.nonce next := by
  cases phase with
  | opening => exact drafted.write at_ fresh (write_of_begin done)
  | filling =>
      obtain ⟨tables, _, written⟩ := Data.bind_eq_ok.mp done
      exact drafted.write at_ fresh (Data.mapError_eq_ok.mp written)
  | moving => contradiction

theorem kept_discard (drafted : Drafted store disk home nonce reached)
    (at_ : disk.Home store.directory home entries)
    (fresh : entries.get? (draftName nonce) = none) :
    Kept disk (discard reached (store.draft nonce)) := by
  rw [draft_eq]
  rcases drafted with rfl | ⟨added, plain, sayable⟩
  · rw [discard_absent at_ fresh (draftName_named nonce) (draftName_down nonce)]
    exact .refl reached
  · exact added.kept_discard at_ fresh plain sayable

/-- An installation that fails does so in a phase that finds no more than a draft. -/
theorem of_foldlM {go : Disk → Phase → Except (Fault × Disk) Disk} {fault : Fault} {left : Disk}
    (keeps : ∀ reached phase next, phase ≠ .moving → Drafted store disk home nonce reached →
      go reached phase = .ok next → Drafted store disk home nonce next)
    (failed : Phase.all.foldlM go disk = .error (fault, left)) :
    ∃ reached phase, Drafted store disk home nonce reached ∧
      go reached phase = .error (fault, left) := by
  rw [Phase.all_foldlM] at failed
  have start : Drafted store disk home nonce disk := .inl rfl
  rcases Data.bind_eq_error.mp failed with failed | ⟨begun, started, failed⟩
  · exact ⟨disk, _, start, failed⟩
  · have begun_ := keeps disk .opening begun (by decide) start started
    rcases Data.bind_eq_error.mp failed with failed | ⟨full, filled, failed⟩
    · exact ⟨begun, _, begun_, failed⟩
    · exact ⟨full, _, keeps begun .filling full (by decide) begun_ filled, failed⟩

end Drafted

/-- Writing an index into a directory either fails and leaves the disk as it was, or puts a file with
its tables under the name of the artifact. -/
theorem install_outcome (at_ : disk.Home store.directory home entries) {details : Details}
    (fresh : entries.get? (draftName details.nonce) = none) (index : Index)
    (skipped : List SkippedFile) :
    (∃ fault after, store.install disk index skipped details = (.error fault, after) ∧
      Kept disk after) ∨
    ∃ tables after, store.install disk index skipped details = (.ok store.path, after) ∧
      Written store disk home entries index skipped details tables after := by
  cases ran : Phase.all.foldlM (fun disk phase =>
      (store.perform index skipped details disk phase).mapError (·, disk)) disk with
  | error failure =>
      obtain ⟨fault, left⟩ := failure
      obtain ⟨reached, phase, drafted, failed⟩ := Drafted.of_foldlM (fun _ _ _ early drafted done =>
        drafted.perform at_ fresh early (Data.mapError_eq_ok.mp done)) ran
      have same : left = reached := by
        cases ended : store.perform index skipped details reached phase with
        | ok next => simp [ended, Data.ok_mapError] at failed
        | error own =>
            rw [ended] at failed
            cases failed
            rfl
      refine .inl ⟨fault, _, ?_, same ▸ drafted.kept_discard at_ fresh⟩
      rw [install, installBy, ran]
  | ok after =>
      have wrote : store.install disk index skipped details = (.ok store.path, after) := by
        rw [install, installBy, ran]
      obtain ⟨begun, full, started, filled, renamed, _⟩ := phases_of_install wrote
      obtain ⟨rfl, plain, sayable, reachable⟩ := of_begin at_ fresh started
      obtain ⟨tables, encoded, written⟩ := Data.bind_eq_ok.mp filled
      cases (write_draft at_ fresh plain sayable tables).symm.trans (Data.mapError_eq_ok.mp written)
      have added := added_filled disk home details.nonce tables
      have moved := Data.mapError_eq_ok.mp renamed
      -- only a directory in the place of the artifact keeps the draft from being moved there
      have slot (below : Entries) : entries.get? fileName ≠ some (.dir below) := by
        intro taken
        obtain ⟨error, refused⟩ := move_refused added at_ taken fresh plain sayable
        cases refused.symm.trans moved
      cases (move_draft added at_ slot fresh plain sayable).symm.trans moved
      exact .inr ⟨tables, _, wrote, encoded, rfl, slot, sayable, reachable⟩

theorem path_of_install {index : Index} {skipped : List SkippedFile} {details : Details}
    {path : Path} {after : Disk}
    (wrote : store.install disk index skipped details = (.ok path, after)) : path = store.path := by
  obtain ⟨_, _, _, _, _, same⟩ := phases_of_install wrote
  exact same

theorem written_of_install (at_ : disk.Home store.directory home entries) {details : Details}
    (fresh : entries.get? (draftName details.nonce) = none) {index : Index}
    {skipped : List SkippedFile} {after : Disk}
    (wrote : store.install disk index skipped details = (.ok store.path, after)) :
    ∃ tables, Written store disk home entries index skipped details tables after := by
  rcases install_outcome at_ fresh index skipped with
    ⟨fault, left, failed, _⟩ | ⟨tables, left, done, written⟩
  · cases wrote.symm.trans failed
  · cases wrote.symm.trans done
    exact ⟨tables, written⟩

/-- Where the path of the directory stays firm, what was written is an artifact that can be reached. -/
theorem install_firm (at_ : disk.Home store.directory home entries) {details : Details}
    (fresh : entries.get? (draftName details.nonce) = none)
    (firm : (∀ below, entries.get? fileName ≠ some (.dir below)) → Firm store disk home entries)
    (index : Index) (skipped : List SkippedFile) :
    (∃ fault after, store.install disk index skipped details = (.error fault, after) ∧
      Kept disk after) ∨
    ∃ tables, store.install disk index skipped details =
        (.ok store.path, saved disk home details.nonce tables) ∧
      Artifact.encode (store.draft details.nonce) index skipped details.root details.created =
        .ok tables ∧
      Installed store (saved disk home details.nonce tables) home
        (entries.put fileName (.file disk.next)) disk.next tables := by
  rcases install_outcome at_ fresh index skipped with failed | ⟨tables, after, wrote, written⟩
  · exact .inl failed
  · have installed := written.installed (firm written.slot)
    rw [written.left] at wrote installed
    exact .inr ⟨tables, wrote, written.encoded, installed⟩

theorem install_cases (at_ : disk.Home store.directory home entries)
    (slot : IsLeaf (entries.get? fileName)) {details : Details}
    (fresh : entries.get? (draftName details.nonce) = none) (index : Index)
    (skipped : List SkippedFile) :
    (∃ fault after, store.install disk index skipped details = (.error fault, after) ∧
      Kept disk after) ∨
    ∃ tables after, store.install disk index skipped details = (.ok store.path, after) ∧
      Artifact.encode (store.draft details.nonce) index skipped details.root details.created =
        .ok tables ∧
      Installed store after home (entries.put fileName (.file disk.next)) disk.next tables := by
  rcases install_firm at_ fresh (fun _ => firm_of_leaf at_ slot) index skipped with
    failed | ⟨tables, wrote, encoded, installed⟩
  · exact .inl failed
  · exact .inr ⟨tables, _, wrote, encoded, installed⟩

theorem locate_of_openFile {path : Path} {serial : Nat} (opened : disk.openFile path = .ok serial) :
    ∃ place, disk.locate path = .ok ⟨place, some (.file serial)⟩ := by
  obtain ⟨node, found, opened⟩ := Data.bind_eq_ok.mp opened
  cases node with
  | file number =>
      cases opened
      obtain ⟨⟨names, held⟩, located, found⟩ := Data.bind_eq_ok.mp found
      cases held with
      | none => simp [fail] at found
      | some node =>
          cases found
          exact ⟨names, located⟩
  | dir below => simp [fail] at opened
  | link target => simp [fail] at opened

theorem connect_eq_ok {path : Path} {serial : Nat} : connect disk path = .ok serial ↔
    disk.openFile path = .ok serial ∧
      isReachable disk path.parent path.name.byteCount = true := by
  unfold connect
  constructor
  · intro connected
    split at connected
    · rename_i other opened
      split at connected
      · rename_i reached
        cases connected
        exact ⟨opened, reached⟩
      · cases connected
    · cases connected
  · rintro ⟨opened, reached⟩
    simp only [opened, reached, if_true]

theorem content_of_load {stored : Artifact.Stored} (loaded : store.load disk = .ok stored) :
    ∃ content, contentAt disk store.path = .ok content ∧
      Artifact.Stored.load store.path content = .ok stored := by
  obtain ⟨present, _, loaded⟩ := Data.bind_eq_ok.mp loaded
  cases present with
  | false => cases loaded
  | true => exact Data.bind_eq_ok.mp loaded

/-- A file under the name of the artifact that can be reached, whatever it holds. -/
structure Occupied (store : Store) (disk : Disk) (home : List RawText) (entries : Entries)
    (serial : Nat) : Prop where
  at_ : disk.Home store.directory home entries
  held : entries.get? fileName = some (.file serial)
  sayable : Sayable store.path
  reachable : isReachable disk store.directory (RawText.ofString fileName).byteCount = true

namespace Occupied

variable {serial : Nat}

theorem locate_eq (occupied : Occupied store disk home entries serial) :
    disk.locate store.path = .ok ⟨home ++ [RawText.ofString fileName], some (.file serial)⟩ := by
  have located := occupied.at_.locateBy_child .target fileName_plain
    (occupied.held ▸ .file serial) occupied.sayable
  rwa [occupied.held] at located

theorem isPresent_eq (occupied : Occupied store disk home entries serial) :
    store.isPresent disk = .ok true := by
  rw [isPresent, Disk.isFile, Disk.leadsTo, Disk.stat, occupied.locate_eq]
  rfl

theorem connect_eq (occupied : Occupied store disk home entries serial) :
    connect disk store.path = .ok serial := by
  have opened : disk.openFile store.path = .ok serial := by
    rw [Disk.openFile, Disk.stat, occupied.locate_eq]
    rfl
  have reached : isReachable disk store.path.parent store.path.name.byteCount = true := by
    rw [path, Path.parent_child, Path.name_child]
    exact occupied.reachable
  exact connect_eq_ok.mpr ⟨opened, reached⟩

theorem contentAt_eq (occupied : Occupied store disk home entries serial)
    {content : Artifact.Content} (readable : (disk.body serial).content? = some content) :
    contentAt disk store.path = .ok content := by
  rw [contentAt, occupied.connect_eq, Data.ok_bind, contentOf, readable]

theorem load_eq (occupied : Occupied store disk home entries serial)
    {content : Artifact.Content} (readable : (disk.body serial).content? = some content) :
    store.load disk = Artifact.Stored.load store.path content := by
  rw [load, occupied.isPresent_eq, Data.ok_bind, if_pos rfl, occupied.contentAt_eq readable,
    Data.ok_bind]

theorem load_unreadable (occupied : Occupied store disk home entries serial)
    (unreadable : (disk.body serial).content? = none) :
    store.load disk = .error (.indexIo store.path .unreadable) := by
  rw [load, occupied.isPresent_eq, Data.ok_bind, if_pos rfl, contentAt, occupied.connect_eq,
    Data.ok_bind, contentOf, unreadable]
  rfl

end Occupied

namespace Installed

variable {serial : Nat} {tables : Artifact.Tables}

theorem occupied (installed : Installed store disk home entries serial tables) :
    Occupied store disk home entries serial :=
  ⟨installed.at_, installed.held, installed.sayable, installed.reachable⟩

theorem connect_eq (installed : Installed store disk home entries serial tables) :
    connect disk store.path = .ok serial := installed.occupied.connect_eq

theorem contentAt_eq (installed : Installed store disk home entries serial tables) :
    contentAt disk store.path = .ok (.tables tables) := by
  exact installed.occupied.contentAt_eq (by rw [installed.body]; rfl)

theorem load_eq (installed : Installed store disk home entries serial tables) :
    store.load disk = Artifact.Stored.load store.path (.tables tables) := by
  exact installed.occupied.load_eq (by rw [installed.body]; rfl)

end Installed

end TokenSearch.Store
