import TokenSearch.Proofs.Disk.Walk

namespace TokenSearch

/-! The directory that a path leads to, and the names in it. -/

open Text

namespace Path

theorem byteCount_append (left right : List UInt32) :
    (RawText.mk (left ++ right)).byteCount =
      (RawText.mk left).byteCount + (RawText.mk right).byteCount := by
  have shift (points : List UInt32) (total : Nat) :
      points.foldl (fun total point => total + RawText.width point) total =
        total + points.foldl (fun total point => total + RawText.width point) 0 := by
    induction points generalizing total with
    | nil => rfl
    | cons point rest ih =>
        rw [List.foldl_cons, List.foldl_cons, ih, ih (0 + RawText.width point)]
        omega
  rw [RawText.byteCount, RawText.byteCount, RawText.byteCount, List.foldl_append, shift]

theorem flatten_intersperse_concat {α : Type} (separator last : List α) (parts : List (List α)) :
    ((parts ++ [last]).intersperse separator).flatten =
      (if parts = [] then [] else (parts.intersperse separator).flatten ++ separator) ++ last := by
  induction parts with
  | nil => simp
  | cons first rest ih =>
      cases rest with
      | nil => simp
      | cons second others => simpa using ih

/-- What stands before a name in the text of its path. -/
def front (base : Path) : List UInt32 :=
  (RawText.ofString base.anchor.text).points ++ (if base.parts.map RawText.points = [] then []
    else (RawText.intercalate "/" base.parts).points ++ (RawText.ofString "/").points)

theorem text_child (base : Path) {name : RawText} (filled : name.points ≠ []) :
    (base.child name).text = ⟨base.front ++ name.points⟩ := by
  have whole : (RawText.ofString base.anchor.text ++
      RawText.intercalate "/" (base.child name).parts : RawText) =
      ⟨base.front ++ name.points⟩ := by
    change RawText.mk _ = _
    simp only [front, child, RawText.intercalate, List.map_append, List.map_cons, List.map_nil,
      flatten_intersperse_concat, List.append_assoc]
  have kept : (RawText.mk (base.front ++ name.points)).isEmpty = false := by
    simp [RawText.isEmpty, filled]
  unfold text
  rw [show (base.child name).anchor = base.anchor from rfl, whole]
  simp only [kept, Bool.false_eq_true, if_false]

theorem byteCount_child (base : Path) {name : RawText} (filled : name.points ≠ []) :
    (base.child name).text.byteCount = (RawText.mk base.front).byteCount + name.byteCount := by
  rw [text_child base filled, byteCount_append]

/-- The text of a path is no longer than that of a name below it. -/
theorem byteCount_text_le (base : Path) {name : RawText} (filled : name.points ≠ [])
    (counted : 1 ≤ name.byteCount) : base.text.byteCount ≤ (base.child name).text.byteCount := by
  have whole : (RawText.ofString base.anchor.text ++ RawText.intercalate "/" base.parts).byteCount ≤
      (RawText.mk base.front).byteCount := by
    change (RawText.mk (_ ++ _)).byteCount ≤ _
    rw [front, byteCount_append, byteCount_append]
    apply Nat.add_le_add_left
    split
    · rename_i none_
      simp [RawText.intercalate, none_]
    · rw [byteCount_append]
      exact Nat.le_add_right _ _
  have dot : here.byteCount = 1 := by decide
  rw [byteCount_child base filled]
  unfold text
  simp only
  split
  · omega
  · exact Nat.le_trans whole (Nat.le_add_right _ _)

theorem hasNull_child (base : Path) (name : RawText) :
    (base.child name).hasNull = (base.hasNull || name.hasNull) := by
  simp [hasNull, child]

theorem parent_child (base : Path) (name : RawText) : (base.child name).parent = base := by
  simp [parent, child]

theorem name_child (base : Path) (name : RawText) : (base.child name).name = name := by
  simp [Path.name, child]

end Path

namespace Disk

/-- A name that no directory changes on the way, and that is short enough. -/
structure Plain (name : RawText) : Prop where
  named : Path.isName name = true
  down : name ≠ Path.above
  short : name.byteCount ≤ nameLimit

theorem Plain.filled {name : RawText} (plain : Plain name) : name.points ≠ [] := by
  intro empty
  have named := plain.named
  simp [Path.isName, RawText.isEmpty, empty] at named

theorem Plain.ne_lastSlash {name : RawText} (plain : Plain name) : name ≠ lastSlash := by
  rintro rfl
  exact plain.filled (by decide)

/-- The path `path` leads to the directory at `home`, which holds `entries`. -/
structure Home (disk : Disk) (path : Path) (home : List RawText) (entries : Entries) : Prop where
  entered : ∃ links, enter disk.root linkLimit (disk.origin path) path.parts = some (home, links)
  found : disk.root.find? home = some (.dir entries)

/-- A path that can be asked for at all. -/
structure Sayable (path : Path) : Prop where
  noNull : path.hasNull = false
  short : path.text.byteCount ≤ pathLimit

theorem Sayable.of_child {base : Path} {name : RawText} (filled : name.points ≠ [])
    (counted : 1 ≤ name.byteCount) (sayable : Sayable (base.child name)) : Sayable base where
  noNull := by
    have noNull := sayable.noNull
    rw [Path.hasNull_child, Bool.or_eq_false_iff] at noNull
    exact noNull.1
  short := Nat.le_trans (base.byteCount_text_le filled counted) sayable.short

theorem locateBy_of_sayable {path : Path} (sayable : Sayable path) (disk : Disk) (aim : Aim) :
    disk.locateBy aim path =
      match walk disk.root aim linkLimit (disk.origin path) path.parts with
      | .ok place => .ok place
      | .error cause => fail cause path := by
  have noNull := sayable.noNull
  have short := sayable.short
  rewrite [locateBy, if_neg (by simp [noNull]), if_neg (by omega)]
  rfl

theorem sayable_of_locateBy {disk : Disk} {aim : Aim} {path : Path} {place : Place}
    (located : disk.locateBy aim path = .ok place) : Sayable path := by
  unfold locateBy at located
  split at located
  · contradiction
  · rename_i noNull
    split at located
    · simp [fail] at located
    · rename_i short
      exact ⟨by simpa using noNull, by omega⟩

theorem walk_of_locateBy {disk : Disk} {aim : Aim} {path : Path} {place : Place}
    (located : disk.locateBy aim path = .ok place) :
    walk disk.root aim linkLimit (disk.origin path) path.parts = .ok place := by
  rw [locateBy_of_sayable (sayable_of_locateBy located)] at located
  cases walked : walk disk.root aim linkLimit (disk.origin path) path.parts with
  | error cause => simp [walked, fail] at located
  | ok other =>
      rw [walked] at located
      cases located
      rfl

theorem home_of_locate {disk : Disk} {path : Path} {home : List RawText} {entries : Entries}
    (located : disk.locate path = .ok ⟨home, some (.dir entries)⟩) : disk.Home path home entries := by
  obtain ⟨entered, found⟩ := enter_of_walk (walk_of_locateBy located) rfl
  exact ⟨entered, found⟩

/-- Where the same links lie, every path is resolved to the same place. -/
theorem resolve_congr {disk after : Disk} (current : after.current = disk.current)
    (count : after.root.linkCount = disk.root.linkCount)
    (same : ∀ place target,
      after.root.find? place = some (.link target) ↔ disk.root.find? place = some (.link target))
    (path : Path) : after.resolve path = disk.resolve path := by
  have origin : after.origin path = disk.origin path := by rw [Disk.origin, Disk.origin, current]
  rw [Disk.resolve, Disk.resolve, count, origin, resolveFrom_congr _ _ _ _ same]

namespace Home

variable {disk : Disk} {path : Path} {home : List RawText} {entries : Entries}

theorem walk_child (at_ : disk.Home path home entries) (aim : Aim) {name : RawText}
    (plain : Plain name) (leaf : IsLeaf (entries.get? name)) :
    walk disk.root aim linkLimit (disk.origin (path.child name)) (path.child name).parts =
      .ok ⟨home ++ [name], entries.get? name⟩ := by
  obtain ⟨links, entered⟩ := at_.entered
  have origin : disk.origin (path.child name) = disk.origin path := rfl
  have held := Entries.find?_child at_.found name
  have named : ¬ (!Path.isName name) = true := by simp [plain.named]
  rw [origin, Path.child, walk_of_enter entered aim plain.ne_lastSlash,
    walk_name named plain.down (.inr (by simp)) (by have := plain.short; omega), held]
  rcases leaf with absent | ⟨serial, file⟩
  · rw [absent]
    rfl
  · rw [file]
    rfl

/-- A name in the directory leads to what the directory holds under it. -/
theorem locateBy_child (at_ : disk.Home path home entries) (aim : Aim) {name : RawText}
    (plain : Plain name) (leaf : IsLeaf (entries.get? name)) (sayable : Sayable (path.child name)) :
    disk.locateBy aim (path.child name) = .ok ⟨home ++ [name], entries.get? name⟩ := by
  rw [locateBy_of_sayable sayable, at_.walk_child aim plain leaf]

/-- What a name in the directory stands for is told without following it. -/
theorem locateLink_child (at_ : disk.Home path home entries) {name : RawText} (plain : Plain name)
    (sayable : Sayable (path.child name)) :
    disk.locateLink (path.child name) = .ok ⟨home ++ [name], entries.get? name⟩ := by
  obtain ⟨links, entered⟩ := at_.entered
  have origin : disk.origin (path.child name) = disk.origin path := rfl
  have held := Entries.find?_child at_.found name
  have named : ¬ (!Path.isName name) = true := by simp [plain.named]
  have short : ¬ nameLimit < name.byteCount := Nat.not_lt.mpr plain.short
  rw [locateLink, locateBy_of_sayable sayable, origin, Path.child,
    walk_of_enter entered .entry plain.ne_lastSlash,
    walk_name named plain.down (.inl (by decide)) short, held]
  cases slot : entries.get? name with
  | none => rfl
  | some node =>
      cases node with
      | file serial => rfl
      | link target => rfl
      | dir below => simp only [walk_nil, held, slot]

theorem plain_of_locateBy (at_ : disk.Home path home entries) {aim : Aim} {name : RawText}
    (named : Path.isName name = true) (down : name ≠ Path.above) {place : Place}
    (located : disk.locateBy aim (path.child name) = .ok place) : Plain name := by
  refine ⟨named, down, Nat.not_lt.mp (fun long => ?_)⟩
  obtain ⟨links, entered⟩ := at_.entered
  have walked := walk_of_locateBy located
  have origin : disk.origin (path.child name) = disk.origin path := rfl
  have filled : name ≠ lastSlash := by
    rintro rfl
    exact absurd named (by decide)
  rw [origin, Path.child, walk_of_enter entered aim filled,
    walk_long (by simp [named]) down (.inr (by simp)) long] at walked
  contradiction

/-- A change in place of a leaf leaves the way to the directory as it is. -/
theorem set_leaf (at_ : disk.Home path home entries) {name : RawText}
    (leaf : IsLeaf (entries.get? name)) {after : Disk} {node : Option Node}
    (changed : after.root = disk.root.set node (home ++ [name]))
    (current : after.current = disk.current) :
    after.Home path home (entries.change name node) := by
  obtain ⟨links, entered⟩ := at_.entered
  have origin : after.origin path = disk.origin path := by rw [Disk.origin, Disk.origin, current]
  refine ⟨⟨links, ?_⟩, ?_⟩
  · rw [origin, changed]
    exact enter_congr (fun place holds => Entries.kind_of_set_leaf at_.found leaf _ holds) entered
  · rw [changed]
    exact Entries.find?_set_home at_.found name node

theorem set_file (at_ : disk.Home path home entries) {name : RawText}
    (leaf : IsLeaf (entries.get? name)) {after : Disk} {serial : Nat}
    (changed : after.root = disk.root.set (some (.file serial)) (home ++ [name]))
    (current : after.current = disk.current) :
    after.Home path home (entries.put name (.file serial)) :=
  at_.set_leaf leaf changed current

/-- A leaf in place of a leaf changes nothing about where paths lead. -/
theorem resolve_set_leaf (at_ : disk.Home path home entries) {name : RawText}
    (leaf : IsLeaf (entries.get? name)) {after : Disk} {node : Option Node} (next : IsLeaf node)
    (held : IsLeaf ((entries.change name node).get? name))
    (changed : after.root = disk.root.set node (home ++ [name]))
    (current : after.current = disk.current) (other : Path) :
    after.resolve other = disk.resolve other := by
  refine resolve_congr current ?_ ?_ other
  · rw [changed, Entries.linkCount_set at_.found (Entries.linksOf_leaf leaf)
      (Entries.linksOf_leaf next)]
  · rw [changed]
    exact Entries.link_set at_.found leaf held

theorem resolve_set_file (at_ : disk.Home path home entries) {name : RawText}
    (leaf : IsLeaf (entries.get? name)) {after : Disk} {serial : Nat}
    (changed : after.root = disk.root.set (some (.file serial)) (home ++ [name]))
    (current : after.current = disk.current) (other : Path) :
    after.resolve other = disk.resolve other := by
  refine at_.resolve_set_leaf leaf (.file serial) ?_ changed current other
  rw [Entries.get?_change_some]
  exact .file serial

/-- A directory in a directory. -/
theorem child {below : Entries} (at_ : disk.Home path home entries) {name : RawText}
    (plain : Plain name) (held : entries.get? name = some (.dir below)) :
    disk.Home (path.child name) (home ++ [name]) below where
  entered := by
    obtain ⟨links, entered⟩ := at_.entered
    have there := Entries.find?_child at_.found name
    have origin : disk.origin (path.child name) = disk.origin path := rfl
    refine ⟨links, ?_⟩
    rw [origin, Path.child, enter_append, entered, Option.bind_some, enter,
      if_neg (by simp [plain.named]), if_neg plain.down, if_neg (Nat.not_lt.mpr plain.short), there,
      held]
    exact enter_nil _ _ _
  found := by rw [Entries.find?_child at_.found, held]

theorem locate_eq (at_ : disk.Home path home entries) (sayable : Sayable path) :
    disk.locate path = .ok ⟨home, some (.dir entries)⟩ := by
  obtain ⟨links, entered⟩ := at_.entered
  rw [locate, locateBy_of_sayable sayable, walk_target_of_enter entered, at_.found]

theorem isDir_eq (at_ : disk.Home path home entries) (sayable : Sayable path) :
    disk.isDir path = .ok true := by
  rw [isDir, leadsTo, stat, at_.locate_eq sayable]
  rfl

/-- A directory is listed unless it is sealed. -/
theorem scan_eq (at_ : disk.Home path home entries) (sayable : Sayable path) :
    disk.scan path =
      match disk.system.sealed home with
      | some cause => fail cause path
      | none => .ok entries := by
  rw [scan, at_.locate_eq sayable]
  rfl

theorem makeDirs_eq (at_ : disk.Home path home entries) (sayable : Sayable path) :
    disk.makeDirs path = (.ok (), disk) := by
  obtain ⟨links, entered⟩ := at_.entered
  obtain ⟨names, node, walked⟩ := entry_of_enter entered at_.found
  have taken : disk.makeDir path = .error (.refused .alreadyExists (.path path.text)) := by
    rw [makeDir, locateLink, locateBy_of_sayable sayable, walked]
    rfl
  rw [makeDirs, taken]
  simp only [Error.isMissing, Bool.false_eq_true, if_false, settle, at_.isDir_eq sayable]

end Home

end Disk

end TokenSearch
