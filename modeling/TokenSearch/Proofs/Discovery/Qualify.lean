import Mathlib
import TokenSearch.Proofs.Discovery.Reach
import TokenSearch.Proofs.Disk.Home

namespace TokenSearch

/-! Which files are found under a root: those with a wanted suffix that lie in no directory that is
skipped by its name or is the directory of the index. -/

open Data Text

theorem Disk.Entries.find?_cons {name : RawText} {node other : Disk.Node} {rest : Disk.Entries}
    {names : List RawText} (isEnd : node.IsEnd)
    (found : (Disk.Entries.cons name other rest).find? names = some node) :
    (∃ later, names = name :: later ∧
      (Disk.Entries.cons name other .nil).find? (name :: later) = some node) ∨
    rest.find? names = some node := by
  cases names with
  | nil =>
      cases found
      exact absurd rfl (isEnd _)
  | cons first later =>
      by_cases same : name = first
      · subst same
        refine .inl ⟨later, rfl, ?_⟩
        rw [find?, get?, if_pos rfl] at found ⊢
        exact found
      · rw [find?, get?, if_neg same] at found
        rw [find?]
        exact .inr found

theorem Disk.Entries.find?_nil_ne {node : Disk.Node} (isEnd : node.IsEnd) (names : List RawText) :
    Disk.Entries.nil.find? names ≠ some node := by
  cases names with
  | nil =>
      rintro ⟨⟩
      exact isEnd _ rfl
  | cons => simp [find?, get?]

theorem Disk.Entries.find?_cons_file {name : RawText} {node : Disk.Node} {serial : Nat}
    {rest : Disk.Entries} {names : List RawText} (isEnd : node.IsEnd)
    (found : (Disk.Entries.cons name (.file serial) rest).find? names = some node) :
    names = [name] ∨ rest.find? names = some node := by
  rcases find?_cons isEnd found with ⟨later, rfl, held⟩ | other
  · cases later with
    | nil => exact .inl rfl
    | cons => simp [find?, get?] at held
  · exact .inr other

theorem Disk.Entries.find?_cons_dir {name : RawText} {node : Disk.Node} {below rest : Disk.Entries}
    {names : List RawText} (isEnd : node.IsEnd)
    (found : (Disk.Entries.cons name (.dir below) rest).find? names = some node) :
    (∃ later, names = name :: later ∧ below.find? later = some node) ∨
      rest.find? names = some node := by
  rcases find?_cons isEnd found with ⟨later, rfl, held⟩ | other
  · exact .inl ⟨later, rfl, by simpa [find?, get?] using held⟩
  · exact .inr other

namespace Discovery

section Split

variable {disk : Disk} {filter : Filter} {here : Path} {entries : Disk.Entries} {names : List RawText}

theorem Reaches.find? (reaches : Reaches disk filter here entries names) :
    ∃ node, entries.find? names = some node ∧ node.IsEnd := by
  induction reaches with
  | @entry _ _ name node held isEnd _ =>
      refine ⟨node, ?_, isEnd⟩
      rw [Disk.Entries.find?, held]
      cases node with
      | dir below => exact absurd rfl (isEnd below)
      | file | link => rfl
  | down held _ _ _ ih =>
      obtain ⟨node, found, isEnd⟩ := ih
      exact ⟨node, by rw [Disk.Entries.find?, held]; exact found, isEnd⟩

theorem Reaches.wanted (reaches : Reaches disk filter here entries names) :
    ∃ before name, names = before ++ [name] ∧ filter.wants name = true := by
  induction reaches with
  | entry _ _ wanted => exact ⟨[], _, rfl, wanted⟩
  | @down _ _ _ first _ _ _ _ _ ih =>
      obtain ⟨before, name, rfl, wanted⟩ := ih
      exact ⟨first :: before, name, rfl, wanted⟩

/-- The directories on the way are entered. -/
theorem Reaches.entered (reaches : Reaches disk filter here entries names) :
    ∀ before name after, names = before ++ name :: after → after ≠ [] →
      filter.prunes disk (here.below (before ++ [name])) name = false ∧
        disk.Lists (here.below (before ++ [name])) := by
  induction reaches with
  | entry =>
      intro before name after split more
      have short := congrArg List.length split
      have filled := List.length_pos_iff.mpr more
      simp only [List.length_cons, List.length_nil, List.length_append] at short
      omega
  | @down here _ _ first _ _ open_ lists _ ih =>
      intro before name after split more
      cases before with
      | nil =>
          cases split
          exact ⟨open_, lists⟩
      | cons other before =>
          cases split
          rw [List.cons_append, ← here.below_child]
          exact ih before name after rfl more

/-- A walk comes to the wanted entries below directories that can be listed and are not pruned. -/
theorem reaches_iff : Reaches disk filter here entries names ↔
    (∃ node, entries.find? names = some node ∧ node.IsEnd) ∧
    (∃ before name, names = before ++ [name] ∧ filter.wants name = true) ∧
    ∀ before name after, names = before ++ name :: after → after ≠ [] →
      filter.prunes disk (here.below (before ++ [name])) name = false ∧
        disk.Lists (here.below (before ++ [name])) := by
  constructor
  · exact fun reaches => ⟨reaches.find?, reaches.wanted, reaches.entered⟩
  · rintro ⟨⟨node, found, isEnd⟩, ⟨before, last, split, wanted⟩, entered⟩
    subst split
    induction before generalizing here entries with
    | nil =>
        rw [List.nil_append, Disk.Entries.find?] at found
        split at found
        · cases found
          exact absurd rfl (isEnd _)
        · rename_i other _ held
          cases found
          exact .entry held isEnd wanted
        · contradiction
    | cons name before ih =>
        rw [List.cons_append, Disk.Entries.find?] at found
        split at found
        · rename_i below held
          obtain ⟨open_, lists⟩ := entered [] name (before ++ [last]) rfl (by simp)
          refine .down held open_ lists ?_
          refine ih found (fun front other after split more => ?_)
          rw [here.below_child]
          exact entered (name :: front) other after (congrArg (name :: ·) split) more
        · simp at found
        · contradiction

end Split

/-- The names lead from the root to an entry that is no directory, that has a wanted suffix, and
that lies in no directory left out by its name or as the directory of the index, and in none that
the system does not list. -/
structure Qualifies (disk : Disk) (root : Path) (entries : Disk.Entries)
    (extensions skipDirs : List String) (indexDir : Option Path) (names : List RawText) : Prop where
  entry : ∃ node, entries.find? names = some node ∧ node.IsEnd
  suffix : ∃ before name suffix, names = before ++ [name] ∧
    (suffixOf name).toString? = some suffix ∧ lowercase suffix ∈ extensions.map lowercase
  outside : ∀ before name after, names = before ++ name :: after → after ≠ [] →
    (∀ skipped ∈ skipDirs, name ≠ .ofString skipped) ∧
    ∀ directory ∈ indexDir, disk.resolve (root.below (before ++ [name])) ≠ disk.resolve directory
  listed : ∀ before name after, names = before ++ name :: after → after ≠ [] →
    disk.Lists (root.below (before ++ [name]))

section

variable {disk : Disk} {root : Path} {entries : Disk.Entries} {extensions skipDirs : List String}
  {indexDir : Option Path} {names : List RawText}

theorem wants_iff {excluded : Option (List RawText)} {name : RawText} :
    Filter.wants ⟨extensions, skipDirs, excluded⟩ name = true ↔
      ∃ suffix, (suffixOf name).toString? = some suffix ∧
        lowercase suffix ∈ extensions.map lowercase := by
  simp [Filter.wants, Option.any_eq_true]

theorem prunes_eq_false_iff {path : Path} {name : RawText} :
    Filter.prunes ⟨extensions, skipDirs, indexDir.map disk.resolve⟩ disk path name = false ↔
      (∀ skipped ∈ skipDirs, name ≠ .ofString skipped) ∧
      ∀ directory ∈ indexDir, disk.resolve path ≠ disk.resolve directory := by
  simp only [Filter.prunes, Bool.or_eq_false_iff, List.any_eq_false, decide_eq_true_eq,
    decide_eq_false_iff_not]
  refine and_congr_right (fun _ => ?_)
  cases indexDir with
  | none => simp
  | some directory => simp [eq_comm]

theorem reaches_iff_qualifies :
    Reaches disk ⟨extensions, skipDirs, indexDir.map disk.resolve⟩ root entries names ↔
      Qualifies disk root entries extensions skipDirs indexDir names := by
  rw [reaches_iff]
  simp only [wants_iff, prunes_eq_false_iff]
  constructor
  · rintro ⟨entry, ⟨before, name, split, suffix, ends, wanted⟩, entered⟩
    exact ⟨entry, ⟨before, name, suffix, split, ends, wanted⟩,
      fun before name after split more => (entered before name after split more).1,
      fun before name after split more => (entered before name after split more).2⟩
  · rintro ⟨entry, ⟨before, name, suffix, split, ends, wanted⟩, outside, listed⟩
    exact ⟨entry, ⟨before, name, split, suffix, ends, wanted⟩,
      fun before name after split more =>
        ⟨outside before name after split more, listed before name after split more⟩⟩

theorem exclude_eq {path : Path} {excluded : List RawText}
    (resolved : exclude disk path = .ok excluded) : excluded = disk.resolve path := by
  unfold exclude at resolved
  split at resolved
  · contradiction
  · simp only at resolved
    split at resolved
    · contradiction
    · cases resolved
      rfl

theorem excluded_eq {excluded : Option (List RawText)}
    (resolved : indexDir.mapM (exclude disk) = .ok excluded) :
    excluded = indexDir.map disk.resolve := by
  cases indexDir with
  | none =>
      cases resolved
      rfl
  | some path =>
      obtain ⟨names, known, resolved⟩ := bind_eq_ok.mp resolved
      cases resolved
      rw [exclude_eq known]
      rfl

/-- What was found is all that qualifies and is a file, links followed. Each file is there once, and
the paths below the root strictly ascend. -/
structure Found.Exact (found : Found) (disk : Disk) (root : Path) (entries : Disk.Entries)
    (extensions skipDirs : List String) (indexDir : Option Path) : Prop where
  distinct : found.paths.Nodup
  ascending : (found.paths.map (fun path => (relativeText root path).points)).Pairwise (· < ·)
  mem_iff : ∀ path, path ∈ found.paths ↔ ∃ names, path = root.below names ∧
    Qualifies disk root entries extensions skipDirs indexDir names ∧ disk.isFile path = .ok true

/-- Discovery under a directory, if of all that qualifies it can be told whether it is a file. -/
theorem discover_qualifying {excluded : Option (List RawText)}
    (there : disk.scan root = .ok entries) (proper : entries.Names Path.IsPart)
    (resolved : indexDir.mapM (exclude disk) = .ok excluded)
    (told : ∀ names, Qualifies disk root entries extensions skipDirs indexDir names →
      ∃ isFile, disk.isFile (root.below names) = .ok isFile) :
    ∃ found, discover disk root ⟨extensions, skipDirs, excluded⟩ = .ok found ∧
      found.Exact disk root entries extensions skipDirs indexDir := by
  cases excluded_eq resolved
  obtain ⟨sights, visited⟩ := visit_total entries proper
    (fun names reaches => told names (reaches_iff_qualifies.mp reaches))
  obtain ⟨notes, discovered⟩ := discover_of_visit there visited
  obtain ⟨branches, same, ways⟩ := visit_branches entries proper visited
  obtain ⟨ascending, found⟩ := ways.sorted proper
  rw [same] at discovered
  refine ⟨_, discovered, ?_, ascending, by simpa only [reaches_iff_qualifies] using found⟩
  refine (List.pairwise_map.mp ascending).imp ?_
  rintro path _ less rfl
  exact List.lt_irrefl _ less

end

/-- A library beside a file of its name, and a directory that is skipped. -/
def libraryFiles : Disk.Entries :=
  .cons (.ofString ".git") (.dir (.cons (.ofString "c.c") (.file 0) .nil))
    (.cons (.ofString "lib") (.dir (.cons (.ofString "b.H") (.file 1) .nil))
      (.cons (.ofString "lib.c") (.file 2) .nil))

def libraryDisk : Disk := ⟨libraryFiles, [], [], 3, default⟩

theorem libraryFiles_proper : libraryFiles.Names Path.IsPart := by
  have part (name : String) (named : Path.isName (.ofString name) = true)
      (plain : Path.slash ∉ (RawText.ofString name).points) : Path.IsPart (.ofString name) :=
    ⟨named, plain⟩
  exact ⟨part ".git" (by decide) (by decide), by decide,
    ⟨part "c.c" (by decide) (by decide), List.not_mem_nil, trivial, trivial⟩,
    part "lib" (by decide) (by decide), by decide,
    ⟨part "b.H" (by decide) (by decide), List.not_mem_nil, trivial, trivial⟩,
    part "lib.c" (by decide) (by decide), List.not_mem_nil, trivial, trivial⟩

theorem libraryFiles_ends {names : List RawText} {node : Disk.Node}
    (found : libraryFiles.find? names = some node) (isEnd : node.IsEnd) :
    names = [.ofString ".git", .ofString "c.c"] ∨ names = [.ofString "lib", .ofString "b.H"] ∨
      names = [.ofString "lib.c"] := by
  have nothing := Disk.Entries.find?_nil_ne isEnd
  rcases Disk.Entries.find?_cons_dir isEnd found with ⟨later, rfl, inside⟩ | found
  · rcases Disk.Entries.find?_cons_file isEnd inside with rfl | none_
    · exact .inl rfl
    · exact absurd none_ (nothing _)
  rcases Disk.Entries.find?_cons_dir isEnd found with ⟨later, rfl, inside⟩ | found
  · rcases Disk.Entries.find?_cons_file isEnd inside with rfl | none_
    · exact .inr (.inl rfl)
    · exact absurd none_ (nothing _)
  · rcases Disk.Entries.find?_cons_file isEnd found with rfl | none_
    · exact .inr (.inr rfl)
    · exact absurd none_ (nothing _)

theorem discover_library : ∃ found,
    discover libraryDisk (.ofString "/") ⟨[".C", ".h"], [".git"], some [.ofString "idx"]⟩ =
      .ok found ∧
    found.Exact libraryDisk (.ofString "/") libraryFiles [".C", ".h"] [".git"]
      (some (.ofString "/idx")) := by
  refine discover_qualifying (by cbv) libraryFiles_proper (by cbv) ?_
  intro names qualifies
  obtain ⟨node, held, isEnd⟩ := qualifies.entry
  rcases libraryFiles_ends held isEnd with rfl | rfl | rfl <;> exact ⟨true, by cbv⟩

/-- A directory `r` that holds nothing but a link `a.c`. -/
def linkFiles (target : RawText) : Disk.Entries := .cons (.ofString "a.c") (.link target) .nil

def linkDisk (target : RawText) : Disk :=
  ⟨.cons (.ofString "r") (.dir (linkFiles target)) .nil, [], [], 0, default⟩

theorem scan_linkDisk (target : RawText) :
    (linkDisk target).scan (.ofString "r") = .ok (linkFiles target) := by
  cbv

/-- Of a link to a name that is too long it is not told whether it is a file. -/
theorem isFile_long {target : RawText} (part : Path.IsPart target)
    (long : Disk.nameLimit < target.byteCount) :
    (linkDisk target).isFile (.ofString "r/a.c") =
      .error (.refused .nameTooLong (.path (.ofString "r/a.c"))) := by
  have down : ¬ target = Path.above := by
    rintro rfl
    exact absurd long (by decide)
  have walked : Disk.walk (linkDisk target).root .target Disk.linkLimit []
      [.ofString "r", .ofString "a.c"] = .error .nameTooLong := by
    rw [Disk.walk_name (by decide) (by decide) (.inl (by decide)) (by decide)]
    change Disk.walk (linkDisk target).root .target Disk.linkLimit [.ofString "r"]
      [.ofString "a.c"] = _
    rw [Disk.walk_name (by decide) (by decide) (.inl (by decide)) (by decide)]
    change Disk.walk (linkDisk target).root .target 39 _ (Disk.linkSteps target ++ []) = _
    rw [Disk.linkSteps_of_isPart part]
    exact Disk.walk_long (by simp [part.named]) down (.inl (by decide)) long
  have located : (linkDisk target).locate (.ofString "r/a.c") =
      .error (.refused .nameTooLong (.path (.ofString "r/a.c"))) := by
    have parts : (Path.ofString "r/a.c").parts = [.ofString "r", .ofString "a.c"] := by cbv
    have origin : (linkDisk target).origin (.ofString "r/a.c") = [] := rfl
    rw [Disk.locate, Disk.locateBy_of_sayable ⟨by decide, by decide⟩, origin, parts, walked]
    rfl
  rw [Disk.isFile, Disk.leadsTo, Disk.stat, located]
  rfl

/-- A name of 256 bytes, one more than a name can have. -/
def endlessName : RawText := ⟨List.replicate 256 0x78⟩

theorem endlessName_isPart : Path.IsPart endlessName where
  named := by decide +kernel
  plain := by
    intro member
    exact absurd (List.eq_of_mem_replicate member) (by decide)

/-- Whether an entry is a file cannot always be told. -/
theorem discover_endless : (linkDisk endlessName).scan (.ofString "r") = .ok (linkFiles endlessName) ∧
    (linkFiles endlessName).Names Path.IsPart ∧
    discover (linkDisk endlessName) (.ofString "r") ⟨[".c", ".h"], [], none⟩ =
      .error (.disk (.refused .nameTooLong (.path (.ofString "r/a.c")))) := by
  have told := isFile_long endlessName_isPart (by decide +kernel)
  have visited : visit (linkDisk endlessName) ⟨[".c", ".h"], [], none⟩ (.ofString "r")
      (linkFiles endlessName) = .error (.refused .nameTooLong (.path (.ofString "r/a.c"))) := by
    rw [linkFiles, visit, visitNode_end (by simp [Disk.Node.IsEnd]), if_pos (by cbv)]
    change ((linkDisk endlessName).isFile (.ofString "r/a.c") >>= _ >>= _) = _
    rw [told]
    rfl
  refine ⟨scan_linkDisk _, ⟨⟨by decide, by decide⟩, List.not_mem_nil, trivial, trivial⟩, ?_⟩
  rw [discover, survey_eq (scan_linkDisk _), visited]
  rfl

end Discovery

end TokenSearch
