import TokenSearch.Disk.Tree

namespace TokenSearch.Disk

/-! One name of one directory changes, and all else in the tree stays as it was. -/

/-- What a node is, whatever stands below it. -/
inductive Kind where
  | file (serial : Nat)
  | dir
  | link (target : Text.RawText)
deriving DecidableEq, Repr

def Node.kind : Node → Kind
  | .file serial => .file serial
  | .dir _ => .dir
  | .link target => .link target

/-- Nothing, or a file: neither a directory nor a link. -/
def IsLeaf (node : Option Node) : Prop :=
  node = none ∨ ∃ serial, node = some (.file serial)

theorem IsLeaf.none : IsLeaf none := .inl rfl

theorem IsLeaf.file (serial : Nat) : IsLeaf (some (.file serial)) := .inr ⟨serial, rfl⟩

theorem IsLeaf.ne_dir {node : Option Node} (leaf : IsLeaf node) (below : Entries) :
    node ≠ some (.dir below) := by
  rcases leaf with rfl | ⟨serial, rfl⟩ <;> simp

theorem IsLeaf.ne_link {node : Option Node} (leaf : IsLeaf node) (target : Text.RawText) :
    node ≠ some (.link target) := by
  rcases leaf with rfl | ⟨serial, rfl⟩ <;> simp

/-- A node at which a walk goes no further down. -/
def Node.IsEnd (node : Node) : Prop := ∀ entries, node ≠ .dir entries

theorem Node.IsEnd.of_kind {node other : Node} (isEnd : node.IsEnd) (same : other.kind = node.kind) :
    other.IsEnd := by
  rintro entries rfl
  cases node with
  | dir below => exact isEnd below rfl
  | file | link => cases same

theorem kind_eq_dir {node : Option Node} :
    node.map Node.kind = some .dir ↔ ∃ below, node = some (.dir below) := by
  cases node with
  | none => simp
  | some node => cases node <;> simp [Node.kind]

theorem kind_eq_link {node : Option Node} {target : Text.RawText} :
    node.map Node.kind = some (.link target) ↔ node = some (.link target) := by
  cases node with
  | none => simp
  | some node => cases node <;> simp [Node.kind]

namespace Entries

def change (entries : Entries) (name : Text.RawText) : Option Node → Entries
  | some node => entries.put name node
  | none => entries.erase name

theorem get?_put (entries : Entries) (name other : Text.RawText) (node : Node) :
    (entries.put name node).get? other =
      if name = other then some node else entries.get? other := by
  fun_induction put entries name node with
  | case1 => simp [get?]
  | case2 old rest => by_cases same : name = other <;> simp [get?, same]
  | case3 first old rest differs ih =>
      by_cases same : first = other
      · subst same
        simp [get?, Ne.symm differs]
      · simp [get?, same, ih]

theorem get?_erase_of_ne (entries : Entries) {name other : Text.RawText} (differs : name ≠ other) :
    (entries.erase name).get? other = entries.get? other := by
  fun_induction erase entries name with
  | case1 => rfl
  | case2 node rest => simp [get?, differs]
  | case3 first node rest unlike ih =>
      by_cases same : first = other
      · simp [get?, same]
      · simp [get?, same, ih]

theorem get?_change_of_ne (entries : Entries) {name other : Text.RawText} (differs : name ≠ other)
    (node : Option Node) : (entries.change name node).get? other = entries.get? other := by
  cases node with
  | none => exact entries.get?_erase_of_ne differs
  | some node => rw [change, get?_put, if_neg differs]

theorem erase_put {entries : Entries} {name : Text.RawText} (absent : entries.get? name = none)
    (node : Node) : (entries.put name node).erase name = entries := by
  fun_induction put entries name node with
  | case1 => simp [erase]
  | case2 old rest => simp [get?] at absent
  | case3 first old rest differs ih =>
      rw [get?, if_neg differs] at absent
      rw [erase, if_neg differs, ih absent]

theorem put_put (entries : Entries) (name : Text.RawText) (old new : Node) :
    (entries.put name old).put name new = entries.put name new := by
  fun_induction put entries name old with
  | case1 => simp [put]
  | case2 first rest => simp [put]
  | case3 first previous rest differs ih => simp [put, differs, ih]

theorem erase_put_of_ne (entries : Entries) {name other : Text.RawText} (differs : other ≠ name)
    (node : Node) : (entries.put other node).erase name = (entries.erase name).put other node := by
  fun_induction put entries other node with
  | case1 => simp [erase, put, differs]
  | case2 old rest => simp [erase, put, differs]
  | case3 first old rest unlike ih =>
      by_cases same : first = name
      · simp [erase, same]
      · simp [erase, put, same, unlike, ih]

theorem put_self {entries : Entries} {name : Text.RawText} {node : Node}
    (held : entries.get? name = some node) : entries.put name node = entries := by
  fun_induction put entries name node with
  | case1 => contradiction
  | case2 old rest =>
      simp only [get?, if_true, Option.some.injEq] at held
      rw [held]
  | case3 first old rest differs ih =>
      rw [get?, if_neg differs] at held
      rw [ih held]

theorem find?_append {entries below : Entries} {home : List Text.RawText}
    (found : entries.find? home = some (.dir below)) (rest : List Text.RawText) :
    entries.find? (home ++ rest) = below.find? rest := by
  induction home generalizing entries with
  | nil =>
      cases found
      rfl
  | cons name home ih =>
      rw [find?] at found
      rw [List.cons_append, find?]
      cases held : entries.get? name with
      | none => simp [held] at found
      | some node =>
          cases node with
          | dir inner =>
              rw [held] at found
              exact ih found
          | file serial => simp [held] at found
          | link target => simp [held] at found

theorem find?_single (entries : Entries) (name : Text.RawText) :
    entries.find? [name] = entries.get? name := by
  rw [find?]
  cases entries.get? name with
  | none => rfl
  | some node => cases node <;> rfl

theorem find?_child {entries below : Entries} {home : List Text.RawText}
    (found : entries.find? home = some (.dir below)) (name : Text.RawText) :
    entries.find? (home ++ [name]) = below.get? name := by
  rw [find?_append found, find?_single]

theorem set_cons (entries : Entries) (node : Option Node) (name : Text.RawText)
    {rest : List Text.RawText} (filled : rest ≠ []) :
    entries.set node (name :: rest) =
      match entries.get? name with
      | some (.dir below) => entries.put name (.dir (below.set node rest))
      | _ => entries := by
  cases rest with
  | nil => contradiction
  | cons next others => rfl

theorem set_single (entries : Entries) (node : Option Node) (name : Text.RawText) :
    entries.set node [name] = entries.change name node := by
  cases node <;> rfl

/-- A change in a directory, seen from above: the directory on the way down is put back with the
change in it. -/
theorem set_below {entries inner : Entries} {first name : Text.RawText}
    {home : List Text.RawText} (held : entries.get? first = some (.dir inner))
    (node : Option Node) :
    entries.set node (first :: home ++ [name]) =
      entries.put first (.dir (inner.set node (home ++ [name]))) := by
  rw [List.cons_append, set_cons entries node first (by simp), held]

theorem dir_of_find? {entries below : Entries} {first : Text.RawText} {home : List Text.RawText}
    (found : entries.find? (first :: home) = some (.dir below)) :
    ∃ inner, entries.get? first = some (.dir inner) ∧ inner.find? home = some (.dir below) := by
  rw [find?] at found
  cases held : entries.get? first with
  | none => simp [held] at found
  | some node =>
      cases node with
      | dir inner =>
          rw [held] at found
          exact ⟨inner, rfl, found⟩
      | file serial => simp [held] at found
      | link target => simp [held] at found

theorem find?_set_home {entries below : Entries} {home : List Text.RawText}
    (found : entries.find? home = some (.dir below)) (name : Text.RawText) (node : Option Node) :
    (entries.set node (home ++ [name])).find? home = some (.dir (below.change name node)) := by
  induction home generalizing entries with
  | nil =>
      cases found
      rw [List.nil_append, set_single]
      rfl
  | cons first home ih =>
      obtain ⟨inner, held, later⟩ := dir_of_find? found
      rw [set_below held, find?, get?_put, if_pos rfl]
      exact ih later

/-- Places that do not lie below the changed name keep their kinds. -/
theorem kind_set {entries below : Entries} {home : List Text.RawText}
    (found : entries.find? home = some (.dir below)) {name : Text.RawText} (node : Option Node)
    {place : List Text.RawText} (aside : ¬ (home ++ [name]) <+: place) :
    ((entries.set node (home ++ [name])).find? place).map Node.kind =
      (entries.find? place).map Node.kind := by
  induction home generalizing entries place with
  | nil =>
      rw [List.nil_append, set_single]
      cases place with
      | nil => rfl
      | cons first rest =>
          have differs : name ≠ first := fun same => aside (by simp [same])
          rw [find?, find?, get?_change_of_ne entries differs]
  | cons first home ih =>
      obtain ⟨inner, held, later⟩ := dir_of_find? found
      rw [set_below held]
      cases place with
      | nil => rfl
      | cons other rest =>
          rw [find?, find?, get?_put]
          by_cases same : first = other
          · subst same
            rw [if_pos rfl, held]
            exact ih later (fun inside => aside (by simpa using inside))
          · rw [if_neg same]

/-- What was put under a free name is taken away again without a trace. -/
theorem set_none_set_some {entries below : Entries} {home : List Text.RawText}
    (found : entries.find? home = some (.dir below)) {name : Text.RawText}
    (absent : below.get? name = none) (node : Node) :
    (entries.set (some node) (home ++ [name])).set none (home ++ [name]) = entries := by
  induction home generalizing entries with
  | nil =>
      cases found
      rw [List.nil_append, set_single, set_single]
      exact erase_put absent node
  | cons first home ih =>
      obtain ⟨inner, held, later⟩ := dir_of_find? found
      rw [set_below held, set_below (by rw [get?_put, if_pos rfl]),
        put_put, ih later, put_self held]

/-- A file that is written under one name and then moved to another one is put there. -/
theorem set_moved {entries below : Entries} {home : List Text.RawText}
    (found : entries.find? home = some (.dir below)) {name other : Text.RawText}
    (differs : other ≠ name) (absent : below.get? name = none) (first node : Node) :
    ((entries.set (some first) (home ++ [name])).set (some node) (home ++ [other])).set none
        (home ++ [name]) =
      entries.set (some node) (home ++ [other]) := by
  induction home generalizing entries with
  | nil =>
      cases found
      simp only [List.nil_append, set_single, change]
      rw [erase_put_of_ne _ differs, erase_put absent]
  | cons top home ih =>
      obtain ⟨inner, held, later⟩ := dir_of_find? found
      have put_top (node : Node) (below : Entries) :
          (below.put top node).get? top = some node := by rw [get?_put, if_pos rfl]
      rw [set_below held, set_below (put_top _ _), put_put, set_below (put_top _ _), put_put,
        ih later, set_below held]

theorem find?_below_leaf {entries below : Entries} {home : List Text.RawText}
    (found : entries.find? home = some (.dir below)) {name : Text.RawText}
    (leaf : IsLeaf (below.get? name)) {place : List Text.RawText}
    (inside : (home ++ [name]) <+: place) : IsLeaf (entries.find? place) := by
  obtain ⟨rest, rfl⟩ := inside
  rw [List.append_assoc, find?_append found, List.singleton_append, find?]
  rcases leaf with absent | ⟨serial, held⟩
  · rw [absent]
    exact .none
  · rw [held]
    cases rest with
    | nil => exact .file serial
    | cons _ _ => exact .none

/-- Changing a name under which there is no directory and no link leaves directories and links as
they are, everywhere. -/
theorem kind_of_set_leaf {entries below : Entries} {home : List Text.RawText}
    (found : entries.find? home = some (.dir below)) {name : Text.RawText}
    (leaf : IsLeaf (below.get? name)) (node : Option Node) {place : List Text.RawText}
    (holds : ¬ IsLeaf (entries.find? place)) :
    ((entries.set node (home ++ [name])).find? place).map Node.kind =
      (entries.find? place).map Node.kind :=
  kind_set found node (fun inside => holds (find?_below_leaf found leaf inside))

/-- A leaf in place of a leaf leaves all links as they are. -/
theorem link_set {entries below : Entries} {home : List Text.RawText}
    (found : entries.find? home = some (.dir below)) {name : Text.RawText}
    (leaf : IsLeaf (below.get? name)) {node : Option Node}
    (next : IsLeaf ((below.change name node).get? name)) (place : List Text.RawText)
    (target : Text.RawText) :
    (entries.set node (home ++ [name])).find? place = some (.link target) ↔
      entries.find? place = some (.link target) := by
  by_cases inside : (home ++ [name]) <+: place
  · have old := find?_below_leaf found leaf inside
    have new := find?_below_leaf (find?_set_home found name node) next inside
    constructor
    · intro held
      rw [held] at new
      simp [IsLeaf] at new
    · intro held
      rw [held] at old
      simp [IsLeaf] at old
  · have kept := kind_set found node inside
    rw [← kind_eq_link, ← kind_eq_link, kept]

theorem get?_change_some (entries : Entries) (name : Text.RawText) (node : Node) :
    (entries.change name (some node)).get? name = some node := by
  rw [change, get?_put, if_pos rfl]

def linksOf (node : Option Node) : Nat := (node.map Node.linkCount).getD 0

theorem linksOf_leaf {node : Option Node} (leaf : IsLeaf node) : linksOf node = 0 := by
  rcases leaf with rfl | ⟨serial, rfl⟩ <;> rfl

theorem linkCount_put (entries : Entries) (name : Text.RawText) (node : Node) :
    (entries.put name node).linkCount + linksOf (entries.get? name) =
      entries.linkCount + Node.linkCount node := by
  fun_induction put entries name node with
  | case1 => simp [linkCount, get?, linksOf]
  | case2 old rest =>
      simp [linkCount, get?, linksOf]
      omega
  | case3 first old rest differs ih =>
      rw [linkCount, linkCount, get?, if_neg differs]
      omega

theorem linkCount_erase (entries : Entries) (name : Text.RawText) :
    (entries.erase name).linkCount + linksOf (entries.get? name) = entries.linkCount := by
  fun_induction erase entries name with
  | case1 => rfl
  | case2 node rest =>
      simp [linkCount, get?, linksOf]
      omega
  | case3 first node rest differs ih =>
      rw [linkCount, linkCount, get?, if_neg differs]
      omega

theorem linkCount_change (entries : Entries) (name : Text.RawText) (node : Option Node) :
    (entries.change name node).linkCount + linksOf (entries.get? name) =
      entries.linkCount + linksOf node := by
  cases node with
  | none => exact entries.linkCount_erase name
  | some node => exact entries.linkCount_put name node

/-- Where neither the old node nor the new one holds a link, there are as many links as before. -/
theorem linkCount_set {entries below : Entries} {home : List Text.RawText}
    (found : entries.find? home = some (.dir below)) {name : Text.RawText}
    (none_ : linksOf (below.get? name) = 0) {node : Option Node} (next : linksOf node = 0) :
    (entries.set node (home ++ [name])).linkCount = entries.linkCount := by
  induction home generalizing entries with
  | nil =>
      cases found
      have count := below.linkCount_change name node
      rw [none_, next] at count
      rwa [List.nil_append, set_single]
  | cons first home ih =>
      obtain ⟨inner, held, later⟩ := dir_of_find? found
      have count := entries.linkCount_put first (.dir (inner.set node (home ++ [name])))
      rw [held] at count
      simp only [linksOf, Option.map_some, Option.getD_some, Node.linkCount, ih later] at count
      rw [set_below held]
      omega

end Entries

end TokenSearch.Disk
