import TokenSearch.Proofs.Artifact.Save
import TokenSearch.Proofs.Disk.Make

namespace TokenSearch.Store

/-! The artifact of a store from one save to the next: there is none until a save succeeds, and from
then on there is one. -/

open Disk

variable {store : Store} {disk after : Disk} {home : List Text.RawText} {entries : Entries}
  {serial : Nat} {tables : Artifact.Tables}

/-- What is left of a disk after trying some times to make the directory. -/
def tried (store : Store) (disk : Disk) : Nat → Disk
  | 0 => disk
  | tries + 1 => tried store (store.prepare disk).2 tries

/-- There is no artifact, and none comes to light when one tries to make the directory. -/
structure Vacant (store : Store) (disk : Disk) : Prop where
  hasCurrent : disk.HasCurrent
  bare : ∀ tries home entries, (store.tried disk tries).Home store.directory home entries →
    entries.get? fileName = none

theorem prepare_disk (store : Store) (disk : Disk) :
    (store.prepare disk).2 = (disk.makeDirs store.directory).2 := by
  unfold prepare
  split <;> rename_i made <;> rw [made]

theorem prepare_ok {made : Disk} (ready : store.prepare disk = (.ok (), made)) :
    disk.makeDirs store.directory = (.ok (), made) := by
  unfold prepare at ready
  split at ready
  · rename_i done
    cases ready
    exact done
  · cases ready
  · cases ready

theorem prepare_of_home (at_ : disk.Home store.directory home entries) :
    (store.prepare disk).2 = disk := by
  rw [prepare_disk, at_.makeDirs_kept]

theorem tried_of_home (at_ : disk.Home store.directory home entries) (tries : Nat) :
    store.tried disk tries = disk := by
  induction tries with
  | zero => rfl
  | succ tries ih => rw [tried, prepare_of_home at_, ih]

theorem home_determined {path : Path} {other : List Text.RawText} {others : Entries}
    (first : disk.Home path home entries) (second : disk.Home path other others) :
    home = other ∧ entries = others := by
  obtain ⟨⟨links, entered⟩, found⟩ := first
  obtain ⟨⟨_, again⟩, foundAgain⟩ := second
  rw [entered] at again
  cases again
  rw [found] at foundAgain
  cases foundAgain
  exact ⟨rfl, rfl⟩

theorem home_unique {path : Path} {other : List Text.RawText} {others : Entries}
    (first : disk.Home path home entries) (second : disk.Home path other others) :
    entries = others := (home_determined first second).2

namespace Vacant

theorem of_home (hasCurrent : disk.HasCurrent) (at_ : disk.Home store.directory home entries)
    (free : entries.get? fileName = none) : store.Vacant disk where
  hasCurrent := hasCurrent
  bare := by
    intro tries other others found
    rw [tried_of_home at_] at found
    exact home_unique at_ found ▸ free

theorem prepare (vacant : store.Vacant disk) : store.Vacant (store.prepare disk).2 where
  hasCurrent := by
    rw [prepare_disk]
    exact (makeDirs_made vacant.hasCurrent store.directory).1
  bare := fun tries => vacant.bare (tries + 1)

theorem locate_ne (vacant : store.Vacant disk) (names : List Text.RawText) (node : Node) :
    disk.locate store.path ≠ .ok ⟨names, some node⟩ := by
  intro located
  obtain ⟨home, entries, at_, held⟩ :=
    home_of_locate_child fileName_plain.named fileName_plain.down located
  exact held (vacant.bare 0 home entries at_)

theorem contentAt_ne (vacant : store.Vacant disk) (content : Artifact.Content) :
    contentAt disk store.path ≠ .ok content := by
  intro told
  obtain ⟨serial, connected, _⟩ := Data.bind_eq_ok.mp told
  obtain ⟨place, located⟩ := locate_of_openFile (connect_eq_ok.mp connected).1
  exact vacant.locate_ne place (.file serial) located

theorem load_ne (vacant : store.Vacant disk) (stored : Artifact.Stored) :
    store.load disk ≠ .ok stored := by
  intro loaded
  obtain ⟨content, opened, _⟩ := content_of_load loaded
  exact vacant.contentAt_ne content opened

end Vacant

theorem Installed.kept (installed : Installed store disk home entries serial tables)
    (kept : Kept disk after) : Installed store after home entries serial tables where
  at_ := kept.home_eq installed.at_
  held := installed.held
  old := Nat.lt_of_lt_of_le installed.old kept.next
  body := by rw [Disk.body, kept.records serial installed.old, ← Disk.body, installed.body]
  sayable := installed.sayable
  reachable := by
    have same : after.resolve store.directory = disk.resolve store.directory := by
      rw [Disk.resolve, Disk.resolve, Disk.origin, Disk.origin, kept.root, kept.current]
    rw [isReachable, same]
    exact installed.reachable

theorem Installed.written (installed : Installed store disk home entries serial tables)
    {next : Artifact.Tables} {modified : Int}
    (written : disk.write store.path ⟨.artifact next, modified⟩ = .ok after) :
    Installed store after home entries serial next := by
  have located := installed.at_.locateBy_child .writing fileName_plain
    (installed.held ▸ .file serial) installed.sayable
  rw [installed.held] at located
  rw [Disk.write, path, located] at written
  cases written
  refine ⟨⟨installed.at_.entered, installed.at_.found⟩, installed.held, installed.old, ?_,
    installed.sayable, installed.reachable⟩
  rw [Disk.body, Disk.record?, Disk.overwrite, Data.Assoc.get?_put, if_pos rfl]
  rfl

/-- A directory that is found behind a save is the one that was found before it. The way to it does
not go through the name of the artifact, since there is a file now. -/
theorem Written.home_eq {index : Index} {skipped : List SkippedFile} {details : Details}
    {other : List Text.RawText} {others : Entries}
    (written : Written store disk home entries index skipped details tables after)
    (at_ : disk.Home store.directory home entries)
    (there : after.Home store.directory other others) :
    other = home ∧ others = entries.put fileName (.file disk.next) := by
  have root : after.root =
      disk.root.set (some (.file disk.next)) (home ++ [Text.RawText.ofString fileName]) := by
    rw [written.left]
    rfl
  have origin : after.origin store.directory = disk.origin store.directory := by
    rw [written.left]
    rfl
  have found := Entries.find?_set_home at_.found fileName (some (.file disk.next))
  have leaf : IsLeaf ((entries.change fileName (some (.file disk.next))).get? fileName) := by
    rw [Entries.get?_change_some]
    exact .file disk.next
  obtain ⟨links, entered⟩ := there.entered
  obtain ⟨_, before⟩ := at_.entered
  rw [root, origin] at entered
  have again := enter_congr (fun place holds =>
    (Entries.kind_set at_.found (some (.file disk.next))
      (fun inside => holds (Entries.find?_below_leaf found leaf inside))).symm) entered
  cases again.symm.trans before
  rw [← root] at found
  cases there.found.symm.trans found
  exact ⟨rfl, rfl⟩

/-- An artifact that can be opened behind a save is the one that was saved. -/
theorem Written.installed_of_connect {index : Index} {skipped : List SkippedFile} {details : Details}
    (written : Written store disk home entries index skipped details tables after)
    (at_ : disk.Home store.directory home entries)
    (connected : connect after store.path = .ok serial) :
    Installed store after home (entries.put fileName (.file disk.next)) disk.next tables := by
  obtain ⟨opened, reachable⟩ := connect_eq_ok.mp connected
  obtain ⟨place, located⟩ := locate_of_openFile opened
  obtain ⟨other, others, there, _⟩ :=
    home_of_locate_child fileName_plain.named fileName_plain.down located
  obtain ⟨rfl, rfl⟩ := written.home_eq at_ there
  rw [path, Path.parent_child, Path.name_child] at reachable
  rw [written.left] at there reachable ⊢
  exact installed_of_home there (sayable_path written.sayable) reachable

/-- No name of a draft is taken in the directory. -/
def Fresh (store : Store) (disk : Disk) (nonce : String) : Prop :=
  ∀ home entries, (store.prepare disk).2.Home store.directory home entries →
    entries.get? (draftName nonce) = none

theorem Writable.isFresh {made : Disk} {nonce : String}
    (writable : store.Writable disk nonce made home entries) : store.Fresh disk nonce := by
  intro other others found
  rw [writable.ready] at found
  rw [← home_unique writable.at_ found]
  exact writable.fresh

/-- There is no artifact, or there is one with tables of some kind. -/
inductive Keeps (store : Store) (kind : Artifact.Tables → Prop) (disk : Disk) : Prop where
  | vacant (empty : store.Vacant disk)
  | holds {home : List Text.RawText} {entries : Entries} {serial : Nat} {tables : Artifact.Tables}
      (installed : Installed store disk home entries serial tables) (good : kind tables)

theorem Vacant.kept (vacant : store.Vacant disk) (at_ : disk.Home store.directory home entries)
    (kept : Kept disk after) : store.Vacant after := by
  refine .of_home ?_ (kept.home_eq at_) (vacant.bare 0 home entries at_)
  rw [HasCurrent, kept.root, kept.current]
  exact vacant.hasCurrent

/-- A directory that could be made where there is no artifact is there, and has none. -/
theorem Vacant.bare_home {made : Disk} (vacant : store.Vacant disk)
    (prepared : store.prepare disk = (.ok (), made)) :
    store.Vacant made ∧ ∃ home entries, made.Home store.directory home entries ∧
      entries.get? fileName = none := by
  have empty := vacant.prepare
  have found := (makeDirs_made vacant.hasCurrent store.directory).2
  rw [prepare_ok prepared] at found
  rw [prepared] at empty
  obtain ⟨home, entries, at_⟩ := found rfl
  exact ⟨empty, home, entries, at_, empty.bare 0 home entries at_⟩

/-- If the directory can be made, what is done in it goes on with the old artifact, or with none. -/
theorem Keeps.within_cases {kind : Artifact.Tables → Prop} (keeps : store.Keeps kind disk)
    (body : Disk → Except Fault Path × Disk) :
    (∃ fault made, store.within disk body = (.error fault, made) ∧ store.Keeps kind made) ∨
    ∃ made home entries, store.within disk body = body made ∧ (store.prepare disk).2 = made ∧
      made.Home store.directory home entries ∧ IsLeaf (entries.get? fileName) ∧
      ∀ after, Kept made after → store.Keeps kind after := by
  cases prepared : store.prepare disk with
  | mk ready made =>
      have left : (store.prepare disk).2 = made := by rw [prepared]
      cases ready with
      | error fault =>
          refine .inl ⟨fault, made, by rw [within, prepared], ?_⟩
          cases keeps with
          | vacant empty => exact .vacant (left ▸ empty.prepare)
          | holds installed good =>
              rw [prepare_of_home installed.at_] at left
              exact .holds (left ▸ installed) good
      | ok _ =>
          have goesOn : store.within disk body = body made := by rw [within, prepared]
          cases keeps with
          | vacant empty =>
              obtain ⟨empty, home, entries, at_, free⟩ := empty.bare_home prepared
              exact .inr ⟨made, home, entries, goesOn, rfl, at_, free ▸ .none,
                fun after kept => .vacant (empty.kept at_ kept)⟩
          | @holds home entries serial _ installed good =>
              rw [prepare_of_home installed.at_] at left
              subst left
              exact .inr ⟨_, home, entries, goesOn, rfl, installed.at_,
                installed.held ▸ .file serial, fun after kept => .holds (installed.kept kept) good⟩

/-- A save leaves the old artifact, or none, if it fails, and the tables of the index otherwise. -/
theorem Keeps.save {kind : Artifact.Tables → Prop} (keeps : store.Keeps kind disk)
    {details : Details} (fresh : store.Fresh disk details.nonce) (index : Index)
    (skipped : List SkippedFile) :
    (∃ fault after, store.save disk index skipped details = (.error fault, after) ∧
      store.Keeps kind after) ∨
    ∃ tables after home entries serial,
      store.save disk index skipped details = (.ok store.path, after) ∧
      Artifact.encode (store.draft details.nonce) index skipped details.root details.created =
        .ok tables ∧
      Installed store after home entries serial tables := by
  rw [Store.save]
  rcases keeps.within_cases (fun ready => store.install ready index skipped details) with
    failed | ⟨made, home, entries, goesOn, prepared, at_, slot, stays⟩
  · exact .inl failed
  · rw [goesOn]
    rcases install_cases at_ slot (fresh home entries (prepared ▸ at_)) index skipped with
      ⟨fault, after, failed, kept⟩ | ⟨tables, after, wrote, encoded, next⟩
    · exact .inl ⟨fault, after, failed, stays after kept⟩
    · exact .inr ⟨tables, after, _, _, _, wrote, encoded, next⟩

end TokenSearch.Store
