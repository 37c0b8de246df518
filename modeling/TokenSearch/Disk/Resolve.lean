import TokenSearch.Disk.Locate

namespace TokenSearch.Disk

/-! The names of a path without links. Unlike a walk, this goes on where nothing is there, and it
goes through a link again only if that link was passed to its end. -/

/-- The links met so far: those being followed, and those followed to their ends with where they
lead. -/
abbrev Seen := Data.Assoc (List Text.RawText) (Option (List Text.RawText))

/-- Where a resolution has come. One that runs into a circle ends there, and what is left of the
path stays as it is written. -/
structure Resolved where
  names : List Text.RawText
  ended : Bool
  seen : Seen

/-- The pieces `rest` seen from `names`; an empty piece in front stands for the root. -/
def appendRest (names rest : List Text.RawText) : List Text.RawText :=
  match rest with
  | first :: _ :: _ => if first.isEmpty then rest else names ++ rest
  | _ => names ++ rest

/-- Follows the pieces `rest` from `here`; at most `depth` links are open at once. -/
def resolveFrom (root : Entries) (depth : Nat) (seen : Seen) (here : List Text.RawText) :
    (rest : List Text.RawText) → Resolved
  | [] => ⟨here, true, seen⟩
  | piece :: rest =>
      if !Path.isName piece then resolveFrom root depth seen here rest
      else if piece = Path.above then resolveFrom root depth seen here.dropLast rest
      else
        let there := here ++ [piece]
        match root.find? there with
        | some (.link target) =>
            match Data.Assoc.get? seen there with
            | some (some known) => resolveFrom root depth seen known rest
            | some none => ⟨appendRest there rest, false, seen⟩
            | none =>
                match depth with
                | 0 => ⟨appendRest there rest, false, seen⟩
                | depth + 1 =>
                    let inner := resolveFrom root depth (Data.Assoc.put seen there none)
                      (linkOrigin target here) (Path.piecesOf target)
                    if inner.ended then
                      resolveFrom root (depth + 1)
                        (Data.Assoc.put inner.seen there (some inner.names)) inner.names rest
                    else ⟨appendRest inner.names rest, false, inner.seen⟩
        | _ => resolveFrom root depth seen there rest
termination_by rest => (depth, rest.length)

/-- Names without dots, and without the names before two dots. -/
def tidy (names : List Text.RawText) : List Text.RawText :=
  names.foldl (fun kept name =>
    if !Path.isName name then kept
    else if name = Path.above then kept.dropLast
    else kept ++ [name]) []

def resolve (disk : Disk) (path : Path) : List Text.RawText :=
  tidy (resolveFrom disk.root (disk.root.linkCount + 1) [] (disk.origin path) path.parts).names

end TokenSearch.Disk
