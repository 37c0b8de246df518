import TokenSearch.Disk.Tree
import TokenSearch.Path

namespace TokenSearch.Disk

/-! Finding the node that a path names. Links are followed on the way, up to a limit. -/

/-- Where a path leads: the names from the root down, without links, and what is there. -/
structure Place where
  names : List Text.RawText
  node : Option Node

/-- How many links may be followed on one way. -/
def linkLimit : Nat := 40

/-- How many bytes a name may have. -/
def nameLimit : Nat := 255

/-- How many bytes the text of a path may have. -/
def pathLimit : Nat := 4095

/-- Where a link starts that is seen from `here`. -/
def linkOrigin (target : Text.RawText) (here : List Text.RawText) : List Text.RawText :=
  if target.points.head? = some Path.slash then [] else here

/-- The step that a slash at the end of a link stands for. -/
def lastSlash : Text.RawText := .ofString ""

/-- The steps of a link: its names, and one for a slash at its end. -/
def linkSteps (target : Text.RawText) : List Text.RawText :=
  let pieces := Path.piecesOf target
  let names := pieces.filter (fun piece => !piece.isEmpty)
  if pieces.getLast?.any Text.RawText.isEmpty then names ++ [lastSlash] else names

/-- What a walk is for: what its last name leads to, what stands under that name, or a place to
write a file to. -/
inductive Aim where
  | target
  | entry
  | writing
deriving DecidableEq, Repr

/-- Walks from the directory `here` along `rest`. A missing last name leads to an empty place. A dot
or a slash at the end stays where one is, which must be a directory; no file is written to a name
with such a slash. -/
def walk (root : Entries) (aim : Aim) (links : Nat) (here : List Text.RawText) :
    (rest : List Text.RawText) → Except Cause Place
  | [] => .ok ⟨here, root.find? here⟩
  | name :: rest =>
      if !Path.isName name then walk root aim links here rest
      else if name = Path.above then walk root aim links here.dropLast rest
      else if aim = .writing && rest = [lastSlash] then .error .isDirectory
      else if nameLimit < name.byteCount then .error .nameTooLong
      else
        let there := here ++ [name]
        match root.find? there with
        | none => if rest.isEmpty then .ok ⟨there, none⟩ else .error .notFound
        | some (.file serial) =>
            if rest.isEmpty then .ok ⟨there, some (.file serial)⟩ else .error .notDirectory
        | some (.dir _) => walk root aim links there rest
        | some (.link target) =>
            if rest.isEmpty && aim = .entry then .ok ⟨there, some (.link target)⟩
            else
              match links with
              | 0 => .error .tooManyLinks
              | links + 1 =>
                  walk root aim links (linkOrigin target here) (linkSteps target ++ rest)
termination_by rest => (links, rest.length)

end TokenSearch.Disk

namespace TokenSearch.Disk

def origin (disk : Disk) (path : Path) : List Text.RawText :=
  if path.isAbsolute then [] else disk.current

def fail (cause : Cause) (path : Path) : Except Error α :=
  .error (.refused cause (.path path.text))

/-- Where a path leads; an error names the path. -/
def locateBy (aim : Aim) (disk : Disk) (path : Path) : Except Error Place :=
  if path.hasNull then .error .nullByte
  else if pathLimit < path.text.byteCount then fail .nameTooLong path
  else
    match walk disk.root aim linkLimit (disk.origin path) path.parts with
    | .ok place => .ok place
    | .error cause => fail cause path

/-- Where a path leads, links followed. -/
def locate : Disk → Path → Except Error Place := locateBy .target

/-- Where a path leads; a link as last name is not followed. -/
def locateLink : Disk → Path → Except Error Place := locateBy .entry

/-- What is at the end of a path. -/
def stat (disk : Disk) (path : Path) : Except Error Node := do
  let place ← disk.locate path
  match place.node with
  | some node => return node
  | none => fail .notFound path

/-- Whether a path leads to a node of some kind. A path that leads nowhere does not, but a name that
is too long is an error. -/
def leadsTo (kind : Node → Bool) (disk : Disk) (path : Path) : Except Error Bool :=
  match disk.stat path with
  | .ok node => .ok (kind node)
  | .error (.refused .nameTooLong subject) => .error (.refused .nameTooLong subject)
  | .error _ => .ok false

def isDir : Disk → Path → Except Error Bool :=
  leadsTo (fun | .dir _ => true | _ => false)

def isFile : Disk → Path → Except Error Bool :=
  leadsTo (fun | .file _ => true | _ => false)

end TokenSearch.Disk
