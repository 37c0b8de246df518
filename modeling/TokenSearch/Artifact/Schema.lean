import TokenSearch.Artifact.Tables

namespace TokenSearch.Artifact

/-! The columns of the tables: what they prefer, which must be filled, and which tell the rows
apart. -/

structure Column where
  name : String
  affinity : Affinity
  /-- Whether each row has a value here. -/
  required : Bool
deriving DecidableEq, Repr

namespace Column

def textual (name : String) : Column := ⟨name, .text, true⟩
def integral (name : String) : Column := ⟨name, .integer, true⟩
def raw (name : String) : Column := ⟨name, .none, true⟩

/-- The same column, which may stay empty. -/
def optional (column : Column) : Column := { column with required := false }

end Column

/-- Rows of cells, column by column. -/
class Row (α : Type) where
  table : TableName
  columns : List Column
  /-- The columns that tell rows apart, in the order in which they are looked at. -/
  keys : List (List String)
  cells : α → List Cell
  ofCells? : List Cell → Option α

instance : Row HeaderRow where
  table := .header
  columns := [(Column.textual "key").optional, (Column.textual "value").optional]
  keys := [["key"]]
  cells := fun row => [row.key, row.value]
  ofCells? := fun
    | [key, value] => some ⟨key, value⟩
    | _ => none

instance : Row FileRow where
  table := .files
  columns := [(Column.integral "file_id").optional, .textual "path", .integral "size",
    .textual "sha256", (Column.integral "mtime_ns").optional, .integral "token_count",
    .raw "source"]
  keys := [["file_id"], ["path"]]
  cells := fun row => [.integer row.id, row.path, row.size, row.sha256, row.modified,
    row.tokenCount, row.source]
  ofCells? := fun
    | [.integer id, path, size, sha256, modified, tokenCount, source] =>
        some ⟨id, path, size, sha256, modified, tokenCount, source⟩
    | _ => none

instance : Row TokenRow where
  table := .tokens
  columns := [.integral "file_id", .integral "token_index", .textual "kind", .textual "text",
    .integral "start_offset", .integral "start_line", .integral "start_column",
    .integral "end_offset", .integral "end_line", .integral "end_column"]
  keys := [["file_id", "token_index"]]
  cells := fun row => [row.file, row.place, row.kind, row.text, row.start.offset, row.start.line,
    row.start.column, row.stop.offset, row.stop.line, row.stop.column]
  ofCells? := fun
    | [file, place, kind, text, a, b, c, d, e, f] =>
        some ⟨file, place, kind, text, ⟨a, b, c⟩, ⟨d, e, f⟩⟩
    | _ => none

instance : Row PostingRow where
  table := .postings
  columns := [.textual "kind", .textual "text", .raw "positions_blob"]
  keys := [["kind", "text"]]
  cells := fun row => [row.kind, row.text, row.positions]
  ofCells? := fun
    | [kind, text, positions] => some ⟨kind, text, positions⟩
    | _ => none

instance : Row SkippedRow where
  table := .skipped
  columns := [(Column.textual "path").optional, .textual "reason", .textual "message",
    (Column.integral "byte_offset").optional]
  keys := [["path"]]
  cells := fun row => [row.path, row.reason, row.message, row.offset]
  ofCells? := fun
    | [path, reason, message, offset] => some ⟨path, reason, message, offset⟩
    | _ => none

end TokenSearch.Artifact
