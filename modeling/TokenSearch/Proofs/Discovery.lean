import TokenSearch.Proofs.Discovery.Reach
import TokenSearch.Proofs.Disk.Home

namespace TokenSearch

/-! The files that are found under a root. Where their names can be told, each is found once, under a
name of its own, and the names ascend. -/

open Data Text

namespace Text

/-- ASCII text without capitals. -/
def isSmall (text : String) : Bool :=
  text.toList.all (fun c => decide (c.toNat < 0x80) && c.toLower == c)

theorem lowercase_of_isSmall {text : String} (small : isSmall text = true) :
    lowercase text = text := by
  have kept (before cs : List Char)
      (small : cs.all (fun c => decide (c.toNat < 0x80) && c.toLower == c) = true) :
      Lowercase.chars before cs = cs := by
    induction cs generalizing before with
    | nil => rfl
    | cons c rest ih =>
        simp only [List.all_cons, Bool.and_eq_true, decide_eq_true_eq, beq_iff_eq] at small
        obtain ⟨⟨ascii, same⟩, later⟩ := small
        rw [Lowercase.chars, Lowercase.char, if_pos ascii, same, ih _ later, List.singleton_append]
  rw [lowercase, kept [] text.toList small, String.ofList_toList]

end Text

namespace Discovery

theorem Filter.wants_eq {filter : Filter} {name : RawText} {suffix : String}
    (ends : (suffixOf name).toString? = some suffix)
    (extensions : filter.extensions.all isSmall = true) (small : isSmall suffix = true) :
    filter.wants name = decide (suffix ∈ filter.extensions) := by
  have same : filter.extensions.map lowercase = filter.extensions := by
    rw [List.all_eq_true] at extensions
    have each := List.map_congr_left (fun name member => lowercase_of_isSmall (extensions name member))
    exact each.trans (List.map_id' _)
  rw [wants, ends, Option.any_some, lowercase_of_isSmall small, same]

/-- Paths of files. Their names below the root are in normal form, and ascend. -/
structure Listed (disk : Disk) (root : Path) (paths : List Path) : Prop where
  files : ∀ path ∈ paths, disk.isFile path = .ok true
  normal : ∀ path ∈ paths, normalizePath (relativeName root path) = relativeName root path
  ascending : (paths.map (relativeName root)).Pairwise (· < ·)

theorem Listed.none (disk : Disk) (root : Path) : Listed disk root [] :=
  ⟨by simp, by simp, by simp⟩

/-- Each of the paths has a name below the root that is text. -/
def Told (root : Path) (paths : List Path) : Prop :=
  ∀ path ∈ paths, ∃ known : String, relativeText root path = .ofString known

theorem relativeName_of_told {root path : Path} {known : String}
    (told : relativeText root path = .ofString known) : relativeName root path = known := by
  rw [relativeName, told, RawText.toStringLossy_ofString]

theorem Branches.listed {disk : Disk} {filter : Filter} {root : Path} {entries : Disk.Entries}
    {branches : List (List RawText)} (ways : Branches disk filter root entries branches)
    (proper : entries.Names Path.IsPart)
    (told : Told root (inOrder root (branches.map root.below))) :
    Listed disk root (inOrder root (branches.map root.below)) := by
  obtain ⟨ascending, found⟩ := ways.sorted proper
  refine ⟨?_, ?_, ?_⟩
  · intro path member
    obtain ⟨_, _, _, file⟩ := (found path).mp member
    exact file
  · intro path member
    obtain ⟨known, same⟩ := told path member
    obtain ⟨names, rfl, reaches, _⟩ := (found path).mp member
    rw [relativeName_of_told same]
    rw [relativeText_below] at same
    exact Path.normalizePath_told (reaches.fits proper) same
  · rw [List.pairwise_map] at ascending ⊢
    refine ascending.imp_of_mem (fun {first second} one other less => ?_)
    obtain ⟨known, same⟩ := told first one
    obtain ⟨others, again⟩ := told second other
    rw [relativeName_of_told same, relativeName_of_told again]
    rw [same, again] at less
    exact RawText.lt_of_points_lt less

/-- A directory that is listed lies at a place, and holds what is there. -/
theorem home_of_scan {disk : Disk} {path : Path} {entries : Disk.Entries}
    (scanned : disk.scan path = .ok entries) : ∃ home, disk.Home path home entries := by
  obtain ⟨⟨home, node⟩, located, held⟩ := bind_eq_ok.mp scanned
  cases node with
  | none => cases held
  | some node =>
      cases node with
      | file | link => cases held
      | dir below =>
          simp only at held
          split at held
          · cases held
          · cases held
            exact ⟨home, Disk.home_of_locate located⟩

theorem listed_of_discover {disk : Disk} {root : Path} {filter : Filter} {found : Found}
    (proper : disk.root.Names Path.IsPart) (discovered : discover disk root filter = .ok found)
    (told : Told root found.paths) : Listed disk root found.paths := by
  cases scanned : disk.scan root with
  | ok entries =>
      obtain ⟨home, at_⟩ := home_of_scan scanned
      have below : entries.Names Path.IsPart := Disk.Entries.Names.of_find? proper at_.found
      obtain ⟨branches, same, ways⟩ := branches_of_discover scanned below discovered
      rw [same] at told ⊢
      exact ways.listed below told
  | error error =>
      cases error with
      | nullByte =>
          rw [discover, survey, scanned] at discovered
          cases discovered
      | refused cause subject =>
          obtain ⟨notes, nothing⟩ := discover_barred scanned
          cases nothing.symm.trans discovered
          exact .none disk root

theorem size_of_read {disk : Disk} {path : Path} {node : Disk.Node} {content : Bytes}
    (there : disk.stat path = .ok node) (read : disk.read path = .ok content) :
    disk.sizeOf node = content.length := by
  obtain ⟨serial, opened, body⟩ := bind_eq_ok.mp read
  rw [Disk.openFile, there, ok_bind] at opened
  cases node with
  | dir | link => simp [Disk.fail] at opened
  | file other =>
      cases opened
      rw [Disk.sizeOf]
      cases held : disk.body serial <;> rw [held] at body <;> cases body <;> rfl

/-- The file at a path takes more than `limit` bytes. -/
def Oversize (disk : Disk) (limit : Int) (path : Path) : Prop :=
  ∃ node, disk.stat path = .ok node ∧ limit < disk.sizeOf node

/-- What is made of a file under the name by which the root knows it. -/
inductive Looked (disk : Disk) (root : Path) (limit : Int) (path : Path) : Reading → Prop
  | tooLarge {words : String} : Oversize disk limit path →
      Looked disk root limit path (.skipped ⟨relativeName root path, tooLarge, words, none⟩)
  | unreadable {words : String} : ¬ Oversize disk limit path →
      (∀ content, disk.read path ≠ .ok content) →
      Looked disk root limit path (.skipped ⟨relativeName root path, unreadable, words, none⟩)
  | source {content : Bytes} {modified : Int} : ¬ Oversize disk limit path →
      disk.read path = .ok content →
      Looked disk root limit path (.source ⟨relativeName root path, content, some modified⟩)

theorem looked_of_readOne {disk : Disk} {root : Path} {limit : Int} {path : Path} {outcome : Reading}
    (looked : readOne disk root limit path = .ok outcome) :
    Looked disk root limit path outcome := by
  have refuse {error : Disk.Error} (small : ¬ Oversize disk limit path)
      (failed : ∀ content, disk.read path ≠ .ok content)
      (refusal : refused (relativeName root path) error = .ok outcome) :
      Looked disk root limit path outcome := by
    cases error with
    | nullByte => contradiction
    | refused cause subject =>
        cases refusal
        exact .unreadable small failed
  unfold readOne at looked
  simp only at looked
  -- the size is asked before the file is opened, so a large file is left out without a look at it
  cases there : disk.stat path with
  | error error =>
      rw [there] at looked
      refine refuse ?_ ?_ looked
      · rintro ⟨node, found, _⟩
        rw [there] at found
        contradiction
      · intro content read
        rw [Disk.read, Disk.openFile, there] at read
        contradiction
  | ok node =>
      rw [there] at looked
      simp only at looked
      split at looked
      · rename_i large
        cases looked
        exact .tooLarge ⟨node, there, large⟩
      · rename_i notLarge
        have small : ¬ Oversize disk limit path := by
          rintro ⟨other, found, large⟩
          cases there.symm.trans found
          exact notLarge large
        cases opened : disk.openFile path with
        | error error =>
            rw [opened] at looked
            refine refuse small ?_ looked
            intro content read
            rw [Disk.read, opened] at read
            contradiction
        | ok serial =>
            rw [opened] at looked
            simp only at looked
            have same : disk.read path = disk.system.read (disk.body serial) := by
              rw [Disk.read, opened, ok_bind]
            cases body : disk.system.read (disk.body serial) with
            | error error =>
                rw [body] at looked
                refine refuse small ?_ looked
                intro content read
                rw [same, body] at read
                contradiction
            | ok content =>
                rw [body] at looked same
                cases looked
                exact .source small same

/-- A file that can be read is oversize if its content is longer than the limit. -/
theorem oversize_iff {disk : Disk} {limit : Int} {path : Path} {content : Bytes}
    (read : disk.read path = .ok content) : Oversize disk limit path ↔ limit < content.length := by
  obtain ⟨serial, opened, _⟩ := bind_eq_ok.mp read
  obtain ⟨node, there, _⟩ := bind_eq_ok.mp opened
  have size := size_of_read there read
  constructor
  · rintro ⟨other, found, large⟩
    cases there.symm.trans found
    rwa [size] at large
  · intro large
    exact ⟨node, there, by rwa [size]⟩

/-- A file is taken as a source, or it is left out because it cannot be read or is too large. -/
theorem readOne_cases {disk : Disk} {root : Path} {limit : Int} {path : Path} {outcome : Reading}
    (looked : readOne disk root limit path = .ok outcome) :
    (∃ content modified, outcome = .source ⟨relativeName root path, content, some modified⟩ ∧
      disk.read path = .ok content ∧ content.length ≤ limit) ∨
    ∃ file, outcome = .skipped file ∧ file.path = relativeName root path ∧ file.offset = none ∧
      ∀ content, disk.read path = .ok content → limit < content.length := by
  cases looked_of_readOne looked with
  | tooLarge large => exact .inr ⟨_, rfl, rfl, rfl, fun content read => (oversize_iff read).mp large⟩
  | unreadable _ failed => exact .inr ⟨_, rfl, rfl, rfl, fun content read => absurd read (failed content)⟩
  | @source content modified small read =>
      exact .inl ⟨content, modified, rfl, read, Int.not_lt.mp (mt (oversize_iff read).mpr small)⟩

/-- There is something to tell of each file, whether it can be read or not. -/
theorem readOne_of_isFile {disk : Disk} {path : Path} (file : disk.isFile path = .ok true)
    (root : Path) (limit : Int) : ∃ outcome, readOne disk root limit path = .ok outcome := by
  unfold Disk.isFile Disk.leadsTo at file
  split at file
  · rename_i node there
    cases node with
    | dir | link => cases file
    | file serial =>
        have opened : disk.openFile path = .ok serial := by
          rw [Disk.openFile, there]
          rfl
        simp only [readOne, there, opened]
        split
        · exact ⟨_, rfl⟩
        · cases disk.body serial <;> exact ⟨_, rfl⟩
  · cases file
  · cases file

end Discovery

end TokenSearch
