import TokenSearch.Json
import TokenSearch.Service.Operations

namespace TokenSearch.CommandLine

/-! What commands print: text for people, or JSON. -/

/-- A value of a table; bytes are shown in quotes. -/
def cellJson : Cell → Json
  | .null => .null
  | .integer value => .integer value
  | .real bits => .number (Float.ofBits bits)
  | .text value => .text value
  | .blob value => .text (Cell.shown (.blob value))

def skippedJson (row : Artifact.SkippedRow) : Json :=
  .object [("path", cellJson row.path), ("reason", cellJson row.reason),
    ("message", cellJson row.message), ("offset", cellJson row.offset)]

def textsJson (texts : List String) : Json := .array (texts.map .text)

def prettyLine (json : Json) : String := json.pretty 0 ++ "\n"

def countJson (n : Nat) : Json := .integer n

def buildJson (report : Service.BuildReport) (elapsed : String) : Json :=
  .object [("root", .text report.root.toString), ("index_path", .text report.indexPath.toString),
    ("files_indexed", countJson report.filesIndexed),
    ("files_reused", countJson report.filesReused),
    ("tokens_indexed", countJson report.tokensIndexed),
    ("skipped", .array (report.skipped.map (fun file => skippedJson (.ofFile file)))),
    ("duration_s", .literal elapsed), ("status", .text report.status)]

def buildText (report : Service.BuildReport) (elapsed : String) : Text.RawText :=
  "Indexed " ++ toString report.filesIndexed ++ " files (" ++ toString report.filesReused ++
    " unchanged, " ++ toString report.tokensIndexed ++ " tokens) into " ++
    report.indexPath.text ++ " in " ++ elapsed ++ "s\n" ++
    String.join (report.skipped.map (fun file =>
      "skipped " ++ file.path ++ ": " ++ file.reason ++ ": " ++ file.message ++ "\n"))

def hitJson (hit : Hit) : Json :=
  .object [("path", .text hit.path), ("file_id", .integer hit.file),
    ("start_line", .integer hit.startLine), ("end_line", .integer hit.endLine),
    ("start_token", .integer hit.first), ("end_token", .integer hit.last),
    ("text", .text hit.text), ("highlight_start", .integer hit.highlightStart),
    ("highlight_end", .integer hit.highlightEnd)]

def searchJson (response : Response) (elapsed : String) : Json :=
  .object [("query", .text response.query), ("query_tokens", textsJson response.tokens),
    ("results", .array (response.hits.map hitJson)),
    ("stats", .object [("candidates", countJson response.stats.candidates),
      ("matches", countJson response.stats.matches_),
      ("files_matched", countJson response.stats.files),
      ("truncated", .flag response.stats.truncated), ("search_time", .literal elapsed)])]

def searchText (response : Response) : String :=
  String.join (response.hits.map Hit.format) ++
    if response.stats.truncated then
      "... " ++ toString (response.stats.matches_ - response.hits.length) ++
        " more matches not shown\n"
    else ""

def auditJson (report : Service.AuditReport) (elapsed : String) : Json :=
  .object [("root", .text report.root.toString), ("index_path", .text report.indexPath.toString),
    ("files_indexed", countJson report.filesIndexed),
    ("tokens_indexed", .integer report.tokensIndexed),
    ("created_at", cellJson report.created),
    ("problems", textsJson (report.problems.map Disagreement.message)),
    ("stale", textsJson report.stale), ("missing", .array (report.missing.map cellJson)),
    ("new", textsJson report.new), ("skipped", .array (report.skipped.map skippedJson)),
    ("duration_s", .literal elapsed), ("status", .text report.status)]

def labelled (label : String) (paths : List String) : String :=
  String.join (paths.map (fun path => label ++ " " ++ path ++ "\n"))

/-- The time at which an artifact was written; one that is empty is not told. -/
def createdText : Cell → String
  | .null | .text "" | .blob [] => "-"
  | cell => cell.words

def auditText (report : Service.AuditReport) : Text.RawText :=
  report.indexPath.text ++ ": status=" ++ report.status ++ " files=" ++
    toString report.filesIndexed ++ " tokens=" ++ toString report.tokensIndexed ++ " created=" ++
    createdText report.created ++ "\n" ++
    labelled "problem" (report.problems.map Disagreement.message) ++
    labelled "changed" report.stale ++ labelled "missing" (report.missing.map Cell.words) ++
    labelled "new" report.new

end TokenSearch.CommandLine
