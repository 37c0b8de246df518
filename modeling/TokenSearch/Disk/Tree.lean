import TokenSearch.Artifact.Stored
import TokenSearch.Disk.Error

namespace TokenSearch.Disk

/-! Files in a tree of directories. A directory holds the numbers of its files, and what a file
holds is kept under its number: a file that was removed from its directory can still be read by
those who know the number. -/

/-- What a file holds. An artifact holds the tables of an index; a damaged file holds nothing that
can be read. -/
inductive Body where
  | bytes (content : Bytes)
  | artifact (tables : Artifact.Tables)
  | damaged
deriving DecidableEq, Repr, Inhabited

/-- What a file is to those who open it as an artifact, if it can be read. -/
def Body.content? : Body → Option Artifact.Content
  | .bytes [] => some .empty
  | .bytes _ => some .other
  | .artifact tables => some (.tables tables)
  | .damaged => none

structure Record where
  body : Body
  modified : Int
deriving DecidableEq, Repr, Inhabited

mutual

inductive Node where
  | file (serial : Nat)
  | dir (entries : Entries)
  | link (target : Text.RawText)

inductive Entries where
  | nil
  | cons (name : Text.RawText) (node : Node) (rest : Entries)

end

instance : Inhabited Entries := ⟨.nil⟩
instance : Inhabited Node := ⟨.dir .nil⟩

namespace Entries

def get? (entries : Entries) (name : Text.RawText) : Option Node :=
  match entries with
  | .nil => none
  | .cons other node rest => if other = name then some node else get? rest name

def put (entries : Entries) (name : Text.RawText) (node : Node) : Entries :=
  match entries with
  | .nil => .cons name node .nil
  | .cons other old rest =>
      if other = name then .cons name node rest else .cons other old (put rest name node)

def erase (entries : Entries) (name : Text.RawText) : Entries :=
  match entries with
  | .nil => .nil
  | .cons other node rest => if other = name then rest else .cons other node (erase rest name)

def names : Entries → List Text.RawText
  | .nil => []
  | .cons name _ rest => name :: names rest

mutual

/-- How many links there are below a node, itself among them. -/
def Node.linkCount : Node → Nat
  | .file _ => 0
  | .link _ => 1
  | .dir entries => entries.linkCount

def linkCount : Entries → Nat
  | .nil => 0
  | .cons _ node rest => Node.linkCount node + linkCount rest

end

/-- The node below `entries` at a path of names; links are not followed. -/
def find? (entries : Entries) : List Text.RawText → Option Node
  | [] => some (.dir entries)
  | name :: rest =>
      match entries.get? name with
      | some (.dir below) => below.find? rest
      | some node => if rest.isEmpty then some node else none
      | none => none

/-- Replaces the node at a path of names, or removes it; the directories on the way must be
there. -/
def set (entries : Entries) (node : Option Node) : List Text.RawText → Entries
  | [] => entries
  | [name] =>
      match node with
      | some node => entries.put name node
      | none => entries.erase name
  | name :: rest =>
      match entries.get? name with
      | some (.dir below) => entries.put name (.dir (below.set node rest))
      | _ => entries

end Entries

end TokenSearch.Disk

namespace TokenSearch

/-- What the system makes of the tree: the bytes in which it keeps the tables of an artifact, and the
directories that it does not list, each with the cause. -/
structure Disk.System where
  image : Artifact.Tables → Bytes
  sealed : List Text.RawText → Option Disk.Cause

instance : Inhabited Disk.System := ⟨⟨fun _ => [], fun _ => none⟩⟩

/-- The files at hand: the tree below the root, the directory from which relative paths are seen,
and what the files hold. -/
structure Disk where
  root : Disk.Entries
  current : List Text.RawText
  records : Data.Assoc Nat Disk.Record
  /-- The number of the next file. -/
  next : Nat
  system : Disk.System

end TokenSearch
