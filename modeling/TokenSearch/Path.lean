import TokenSearch.Text.RawText

namespace TokenSearch

/-! Paths with slashes. A path is what stands before its first name and the names themselves;
empty names and single dots are dropped, so two texts name the same path if they agree in this
sense. -/

/-- What a path starts from. Exactly two leading slashes are a start of their own, and more than
two stand for one. -/
inductive Anchor where
  | relative
  | slash
  | doubleSlash
deriving DecidableEq, Repr, Inhabited

def Anchor.text : Anchor → String
  | .relative => ""
  | .slash => "/"
  | .doubleSlash => "//"

structure Path where
  anchor : Anchor
  parts : List Text.RawText
deriving DecidableEq, Repr, Inhabited

namespace Path

def slash : UInt32 := 0x2F

def anchorOf (points : List UInt32) : Anchor :=
  match (points.takeWhile (· = slash)).length with
  | 0 => .relative
  | 2 => .doubleSlash
  | _ => .slash

/-- The pieces between slashes; `current` holds the piece begun, last point first. -/
def pieces (current : List UInt32) : List UInt32 → List (List UInt32)
  | [] => [current.reverse]
  | p :: rest =>
      if p = slash then current.reverse :: pieces [] rest else pieces (p :: current) rest

/-- The texts between the slashes of a text, empty ones among them. -/
def piecesOf (text : Text.RawText) : List Text.RawText :=
  (pieces [] text.points).map Text.RawText.mk

/-- The name of the directory itself. -/
def here : Text.RawText := "."

/-- The name of the directory above. -/
def above : Text.RawText := ".."

def isName (piece : Text.RawText) : Bool :=
  !piece.isEmpty && piece != here

def ofText (text : Text.RawText) : Path :=
  ⟨anchorOf text.points, (piecesOf text).filter isName⟩

def ofString (text : String) : Path := ofText text

/-- The normal form; a relative path without names is a dot. -/
def text (path : Path) : Text.RawText :=
  let text := path.anchor.text ++ Text.RawText.intercalate "/" path.parts
  if text.isEmpty then here else text

/-- The normal form as a string, with U+FFFD for each surrogate. -/
def toString (path : Path) : String := path.text.toStringLossy

instance : ToString Path := ⟨toString⟩

def isAbsolute (path : Path) : Bool :=
  path.anchor != .relative

/-- `next` seen from `base`; an absolute path does not depend on where it is seen from. -/
def join (base next : Path) : Path :=
  if next.isAbsolute then next else ⟨base.anchor, base.parts ++ next.parts⟩

def child (base : Path) (name : Text.RawText) : Path :=
  ⟨base.anchor, base.parts ++ [name]⟩

def parent (path : Path) : Path :=
  ⟨path.anchor, path.parts.dropLast⟩

/-- The path below `base`, if it lies there. -/
def relativeTo? (path base : Path) : Option Path :=
  if path.anchor = base.anchor && base.parts.isPrefixOf path.parts then
    some ⟨.relative, path.parts.drop base.parts.length⟩
  else none

def name (path : Path) : Text.RawText :=
  path.parts.getLast?.getD ""

/-- Whether a null stands in the path, so that no system takes it. -/
def hasNull (path : Path) : Bool :=
  path.parts.any Text.RawText.hasNull

end Path

def dot : UInt32 := 0x2E

/-- The suffix of a file name: from its last dot on, none if that dot is the first or the last
character. -/
def suffixOf (name : Text.RawText) : Text.RawText :=
  let tail := (name.points.reverse.takeWhile (· != dot)).reverse
  let front := name.points.length - tail.length
  if tail.isEmpty || front ≤ 1 then ⟨[]⟩ else ⟨dot :: tail⟩

/-- The form of a path that identifies a file in an index. -/
def normalizePath (text : String) : String :=
  (Path.ofString text).toString

end TokenSearch
