import TokenSearch.Artifact.Tables
import TokenSearch.Data.Codec

namespace TokenSearch.Artifact

/-! The tables of an artifact as the bytes of a file. -/

namespace Format

open Data

/-- What a cell is and what it holds, apart. -/
def apart : Cell → Nat × Int × String × Bytes
  | .null => (0, 0, "", [])
  | .integer value => (1, value, "", [])
  | .real bits => (2, bits.toNat, "", [])
  | .text value => (3, 0, value, [])
  | .blob value => (4, 0, "", value)

def together : Nat × Int × String × Bytes → Cell
  | (1, value, _, _) => .integer value
  | (2, bits, _, _) => .real (UInt64.ofNat bits.toNat)
  | (3, _, value, _) => .text value
  | (4, _, _, value) => .blob value
  | _ => .null

theorem together_apart (cell : Cell) : together (apart cell) = cell := by
  cases cell <;> simp [apart, together]

def cell : Codec Cell :=
  (Codec.pair .nat (.pair .integer (.pair .text .bytes))).through apart together together_apart

def spot : Codec Spot :=
  (Codec.pair cell (.pair cell cell)).through (fun p => (p.offset, p.line, p.column))
    (fun (offset, line, column) => ⟨offset, line, column⟩) (fun _ => rfl)

def headerRow : Codec HeaderRow :=
  (Codec.pair cell cell).through (fun row => (row.key, row.value))
    (fun (key, value) => ⟨key, value⟩) (fun _ => rfl)

def fileRow : Codec FileRow :=
  (Codec.pair .integer (.pair cell (.pair cell (.pair cell (.pair cell
    (.pair cell cell)))))).through
    (fun row => (row.id, row.path, row.size, row.sha256, row.modified, row.tokenCount, row.source))
    (fun (id, path, size, sha256, modified, tokenCount, source) =>
      ⟨id, path, size, sha256, modified, tokenCount, source⟩)
    (fun _ => rfl)

def tokenRow : Codec TokenRow :=
  (Codec.pair cell (.pair cell (.pair cell (.pair cell (.pair spot spot))))).through
    (fun row => (row.file, row.place, row.kind, row.text, row.start, row.stop))
    (fun (file, place, kind, text, start, stop) => ⟨file, place, kind, text, start, stop⟩)
    (fun _ => rfl)

def postingRow : Codec PostingRow :=
  (Codec.pair cell (.pair cell cell)).through (fun row => (row.kind, row.text, row.positions))
    (fun (kind, text, positions) => ⟨kind, text, positions⟩) (fun _ => rfl)

def skippedRow : Codec SkippedRow :=
  (Codec.pair cell (.pair cell (.pair cell cell))).through
    (fun row => (row.path, row.reason, row.message, row.offset))
    (fun (path, reason, message, offset) => ⟨path, reason, message, offset⟩) (fun _ => rfl)

def table {α : Type} (row : Codec α) : Codec (Option (List α)) := .option (.list row)

def tables : Codec Tables :=
  (Codec.pair (table headerRow) (.pair (table fileRow) (.pair (table tokenRow)
    (.pair (table postingRow) (table skippedRow))))).through
    (fun held => (held.header, held.files, held.tokens, held.postings, held.skipped))
    (fun (header, files, tokens, postings, skipped) =>
      ⟨header, files, tokens, postings, skipped⟩)
    (fun _ => rfl)

/-- What a file of tables begins with. -/
def signature : Bytes := Text.Utf8.encodeString "token tables 1\n"

end Format

/-- The bytes of a file that holds the tables. -/
def Tables.toBytes (held : Tables) : Bytes := Format.signature ++ Format.tables.write held

/-- The tables that a file holds; other files hold none. -/
def Tables.ofBytes? (content : Bytes) : Option Tables :=
  if Format.signature.isPrefixOf content then
    match Format.tables.read? (content.drop Format.signature.length) with
    | some (held, []) => some held
    | _ => none
  else none

@[simp]
theorem Tables.ofBytes?_toBytes (held : Tables) : ofBytes? held.toBytes = some held := by
  have whole := Format.tables.read?_write held []
  rw [List.append_nil] at whole
  have signed : Format.signature.isPrefixOf held.toBytes = true := by
    simp [toBytes, List.isPrefixOf_iff_prefix]
  have behind : held.toBytes.drop Format.signature.length = Format.tables.write held := by
    simp [toBytes]
  simp [ofBytes?, signed, behind, whole]

end TokenSearch.Artifact
