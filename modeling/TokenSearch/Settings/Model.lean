import TokenSearch.Data.Assoc
import TokenSearch.Fault
import TokenSearch.Text.Ranges
import TokenSearch.Text.Lowercase

namespace TokenSearch

/-! The settings of a run, and what follows from them. -/

structure Settings where
  indexDir : Text.RawText
  extensions : String
  skipDirs : String
  maxFileBytes : Int
  maxWorkers : Int
  searchLimit : Int
  logLevel : String
  logJson : Bool
  otlpEndpoint : Option String
  otlpTimeout : Float
  metricsFile : Option Text.RawText
deriving Repr, Inhabited

namespace Settings

/-- The members of a list with commas, without blanks around them; empty members do not count. -/
def members (text : String) : List String :=
  ((text.splitOn ",").map Text.trim).filter (fun member => !member.isEmpty)

/-- The suffixes of source files, in small letters and each with its dot. -/
def suffixes (settings : Settings) : List String :=
  (members settings.extensions).map (fun member =>
    let suffix := Text.lowercase member
    if suffix.startsWith "." then suffix else "." ++ suffix)

def skippedNames (settings : Settings) : List String :=
  members settings.skipDirs

def trimSlashes (text : String) : String :=
  String.ofList (text.toList.reverse.dropWhile (· = '/')).reverse

/-- A home directory without slashes at its end; nothing else leaves the root. -/
def homePath (home : String) : String :=
  let trimmed := trimSlashes home
  if trimmed.isEmpty then "/" else trimmed

/-- The home directories of a system: one's own, and those of the accounts. -/
structure Homes where
  own : String
  accounts : Data.Assoc String String
deriving DecidableEq, Repr, Inhabited

/-- The home directory of one who works on a plain system without saying where that is. -/
def defaultHome : String := "/root"

/-- The accounts of a plain system and their home directories. -/
def plainAccounts : Data.Assoc String String :=
  [("root", "/root"), ("daemon", "/usr/sbin"), ("bin", "/bin"), ("sys", "/dev"), ("sync", "/bin"),
    ("games", "/usr/games"), ("man", "/var/cache/man"), ("lp", "/var/spool/lpd"),
    ("mail", "/var/mail"), ("news", "/var/spool/news"), ("uucp", "/var/spool/uucp"),
    ("proxy", "/bin"), ("www-data", "/var/www"), ("backup", "/var/backups"), ("list", "/var/list"),
    ("irc", "/run/ircd"), ("_apt", "/nonexistent"), ("nobody", "/nonexistent")]

def Homes.plain : Homes := ⟨defaultHome, plainAccounts⟩

/-- A home directory alone is one's own on a plain system. -/
instance : Coe String Homes := ⟨fun own => ⟨own, plainAccounts⟩⟩

/-- The home directories where a variable may say which one is one's own. -/
def Homes.within (homes : Homes) (environment : Data.Assoc String String) : Homes :=
  { homes with own := (Data.Assoc.get? environment "HOME").getD homes.own }

/-- The directory that a first name with a tilde stands for: one's own home, or that of an
account. -/
def Homes.find? (homes : Homes) (name : String) : Option String :=
  if name = "~" then some (homePath homes.own)
  else Data.Assoc.get? homes.accounts (name.drop 1).toString

/-- A path whose first name starts with a tilde begins at a home directory. -/
def expandHome (homes : Homes) (path : Path) : Except Fault Path :=
  match path.anchor, path.parts with
  | .relative, first :: rest =>
      if first.points.head? = some 0x7E then
        match homes.find? first.toStringLossy with
        | some base =>
            if base.startsWith "~" then .error .noHome
            else
              let base := Path.ofString base
              .ok ⟨base.anchor, base.parts ++ rest⟩
        | none => .error .noHome
      else .ok path
  | _, _ => .ok path

/-- The index directory of a root: seen from the root unless it is absolute. -/
def indexDirOf (settings : Settings) (homes : Homes) (root : Path) : Except Fault Path := do
  return root.join (← expandHome homes (Path.ofText settings.indexDir))

/-- How many workers there are: as many as wanted, else four more than there are processors and at
most 32. -/
def workers (settings : Settings) (processors : Option Nat) : Int :=
  if settings.maxWorkers = 0 then
    let count := match processors with
      | none | some 0 => 1
      | some n => n
    min 32 (count + 4 : Nat)
  else settings.maxWorkers

/-- The limit of a search; zero means none. -/
def limit (settings : Settings) : Option Int :=
  if settings.searchLimit = 0 then none else some settings.searchLimit

end Settings

end TokenSearch
