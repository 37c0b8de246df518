import TokenSearch.Proofs.Artifact.Replace
import TokenSearch.Proofs.Disk.Resolve

namespace TokenSearch

/-! A store in the root of a disk. Its directory is always there, so an index can be written to it
wherever nothing stands in the place of the artifact or of its draft. -/

open Text

namespace Disk

theorem home_root (disk : Disk) : disk.Home (.ofString "/") [] disk.root where
  entered := ⟨linkLimit, enter_nil ..⟩
  found := rfl

theorem sayable_root : Sayable (.ofString "/") := ⟨by decide, by decide⟩

theorem resolve_root (disk : Disk) : disk.resolve (.ofString "/") = [] := by
  have parts : (Path.ofString "/").parts = [] := rfl
  have origin : disk.origin (.ofString "/") = [] := rfl
  rw [resolve, parts, origin, resolveFrom]
  rfl

theorem isDir_root (disk : Disk) : disk.isDir (.ofString "/") = .ok true :=
  disk.home_root.isDir_eq sayable_root

theorem scan_root {disk : Disk} (listed : disk.system.sealed [] = none) :
    disk.scan (.ofString "/") = .ok disk.root := by
  rw [disk.home_root.scan_eq sayable_root, listed]

/-- A file in the root is where its name says. -/
theorem locate_root_file (disk : Disk) {name : RawText} {serial : Nat} (plain : Plain name)
    (sayable : Sayable ((Path.ofString "/").child name))
    (held : disk.root.get? name = some (.file serial)) :
    disk.locate ((Path.ofString "/").child name) = .ok ⟨[name], some (.file serial)⟩ := by
  have located := disk.home_root.locateBy_child .target plain (held ▸ .file serial) sayable
  rwa [held] at located

theorem isFile_root (disk : Disk) {name : RawText} {serial : Nat} (plain : Plain name)
    (sayable : Sayable ((Path.ofString "/").child name))
    (held : disk.root.get? name = some (.file serial)) :
    disk.isFile ((Path.ofString "/").child name) = .ok true := by
  rw [isFile, leadsTo, stat, disk.locate_root_file plain sayable held]
  rfl

end Disk

namespace Store

def bare : Store := ⟨Path.ofString "/"⟩

theorem reachable_bare (disk : Disk) {width : Nat} (short : width ≤ 502) :
    isReachable disk bare.directory width = true := by
  have text : (Path.text ⟨.slash, []⟩).byteCount = 1 := by decide
  rw [isReachable, bare, disk.resolve_root, text, pathLimit]
  simp only [decide_eq_true_eq]
  omega

variable {disk : Disk}

/-- An index can be written to the root, if the name of the draft can be said and is free, and no
directory or link has that of the artifact. -/
theorem bare_writable_of {nonce : String} (plain : Disk.Plain (draftName nonce))
    (sayable : Disk.Sayable (bare.draft nonce)) (slot : Disk.IsLeaf (disk.root.get? fileName))
    (fresh : disk.root.get? (draftName nonce) = none) :
    bare.Writable disk nonce disk [] disk.root where
  ready := Home.prepared disk.home_root ⟨by decide, by decide⟩
  located := disk.home_root.locate_eq Disk.sayable_root
  slot := slot
  fresh := fresh
  begins := begin_eq_ok disk.home_root fresh plain sayable (reachable_bare disk (by decide))

theorem bare_writable (slot : Disk.IsLeaf (disk.root.get? fileName))
    (fresh : disk.root.get? (draftName "0") = none) : bare.Writable disk "0" disk [] disk.root :=
  bare_writable_of ⟨by decide, by decide, by decide⟩ ⟨by decide, by decide⟩ slot fresh

theorem bare_installed {serial : Nat} {tables : Artifact.Tables}
    (held : disk.root.get? fileName = some (.file serial)) (old : serial < disk.next)
    (body : disk.body serial = .artifact tables) :
    bare.Installed disk [] disk.root serial tables where
  at_ := disk.home_root
  held := held
  old := old
  body := body
  sayable := ⟨by decide, by decide⟩
  reachable := reachable_bare disk (by decide)

end Store

end TokenSearch
