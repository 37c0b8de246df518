import TokenSearch.Data.Assoc

namespace TokenSearch.Telemetry

/-! Counters of builds and searches, and their text form. -/

structure Metrics where
  builds : Nat
  searches : Nat
  filesIndexed : Nat
  filesSkipped : Data.Assoc String Nat
  searchErrors : Data.Assoc String Nat
  indexFiles : Nat
deriving Repr, Inhabited

namespace Metrics

def empty : Metrics := ⟨0, 0, 0, [], [], 0⟩

/-- One more under a label; labels stay in the order of their first use. -/
def increment (counts : Data.Assoc String Nat) (label : String) : Data.Assoc String Nat :=
  Data.Assoc.put counts label ((Data.Assoc.get? counts label).getD 0 + 1)

def value (n : Nat) : String := toString n ++ ".0"

def heading (name help kind : String) : List String :=
  ["# HELP " ++ name ++ " " ++ help, "# TYPE " ++ name ++ " " ++ kind]

/-- How often something was timed. The times themselves are not kept. -/
def histogram (name help : String) (count : Nat) : List String :=
  heading name help "histogram" ++
    [name ++ "_bucket\x7ble=\"+Inf\"\x7d " ++ value count, name ++ "_count " ++ value count]

def labelled (name help label : String) (counts : Data.Assoc String Nat) : List String :=
  heading name help "counter" ++ counts.map (fun (text, count) =>
    name ++ "\x7b" ++ label ++ "=\"" ++ text ++ "\"\x7d " ++ value count)

def lines (metrics : Metrics) : List String :=
  histogram "looker_build_latency_seconds" "Index build latency in seconds" metrics.builds ++
  histogram "looker_search_latency_seconds" "Search query latency" metrics.searches ++
  heading "looker_files_indexed_total" "Files written to an index" "counter" ++
  ["looker_files_indexed_total " ++ value metrics.filesIndexed] ++
  labelled "looker_files_skipped_total" "Files left out of an index" "reason"
    metrics.filesSkipped ++
  labelled "looker_search_errors_total" "Searches that failed before producing results"
    "error_type" metrics.searchErrors ++
  heading "looker_index_file_count" "Files in the most recently built or opened index" "gauge" ++
  ["looker_index_file_count " ++ value metrics.indexFiles]

def text (metrics : Metrics) : String :=
  String.join (metrics.lines.map (fun line => line ++ "\n"))

end Metrics

end TokenSearch.Telemetry
