import TokenSearch.Proofs.Artifact.Salvage
import TokenSearch.Proofs.Search.Agreement
import TokenSearch.Proofs.Search.Render
import TokenSearch.Search.Engine

namespace TokenSearch

/-! A search of an index whose parts fit together. It comes to its end, or tells that the index is
corrupt; it never meets a value that it cannot use. -/

open Data Artifact Search

/-- A place between two characters of a source, on a line that is a number. -/
structure Spot.Legible (source : Bytes) (spot : Spot) : Prop where
  offset : ∃ place, spot.offset = .integer place ∧ Cut source place
  line : ∃ line, spot.line = .integer line

structure SeenToken.Legible (source : Bytes) (token : SeenToken) : Prop where
  start : token.start.Legible source
  stop : token.stop.Legible source

namespace Reader

/-- Posting lists name files of the table, token counts fit into a column, the tokens of a file have
no gap, and they lie between characters of its source. Each reading may still tell that the index is
corrupt. -/
structure Orderly (reader : Reader) : Prop where
  lists : ∀ identity, CorruptAtWorst (reader.postings identity)
  named : ∀ identity postings, reader.postings identity = .ok postings → ∀ posting ∈ postings,
    0 ≤ posting.file ∧ posting.file < reader.entries.length ∧ 0 ≤ posting.token
  counts : ∀ entry ∈ reader.entries, ∀ n,
    (Cell.integer n).precedes entry.tokenCount = true → n < columnLimit
  windows : ∀ file start stop : Int, 0 ≤ file → file < reader.entries.length →
    0 ≤ start → start < columnLimit → 0 ≤ stop → stop < columnLimit →
      CorruptAtWorst (reader.window file start stop)
  gapless : ∀ (file first stop : Int) tokens, reader.window file first stop = .ok tokens →
    tokens ≠ [] → ∀ (start last : Int) others, 0 ≤ start → start < first + tokens.length →
      start < last → reader.window file start last = .ok others → others ≠ []
  sources : ∀ file : Int, 0 ≤ file → file < reader.entries.length →
    CorruptAtWorst (reader.source file)
  texts : ∀ file source, reader.source file = .ok source → Text.Utf8.WellFormed source
  legible : ∀ file start stop tokens source, reader.window file start stop = .ok tokens →
    reader.source file = .ok source → ∀ token ∈ tokens, token.Legible source

end Reader

namespace Search

variable {reader : Reader} {query : Query}

theorem leastLine_mem (first : SeenToken) (rest : List SeenToken) :
    ∃ token ∈ first :: rest, leastLine first rest = token.start.line := by
  unfold leastLine
  refine List.foldlRecOn (motive := fun line => ∃ token ∈ first :: rest, line = token.start.line)
    rest _ ⟨first, List.mem_cons_self, rfl⟩ (fun line known token member => ?_)
  split
  · exact known
  · exact ⟨token, List.mem_cons_of_mem _ member, rfl⟩

theorem greatestLine_mem (first : SeenToken) (rest : List SeenToken) :
    ∃ token ∈ first :: rest, greatestLine first rest = token.stop.line := by
  unfold greatestLine
  refine List.foldlRecOn (motive := fun line => ∃ token ∈ first :: rest, line = token.stop.line)
    rest _ ⟨first, List.mem_cons_self, rfl⟩ (fun line known token member => ?_)
  split
  · exact known
  · exact ⟨token, List.mem_cons_of_mem _ member, rfl⟩

/-- A match begins inside the tokens that were read for it, and has its lines from them. -/
structure Backed (reader : Reader) (found : Match) : Prop where
  file : 0 ≤ found.file ∧ found.file < reader.entries.length
  first : 0 ≤ found.first ∧ found.first ≤ found.last
  last : found.last + 1 < columnLimit
  tokens : ∃ first stop tokens, reader.window found.file first stop = .ok tokens ∧
    found.first < first + tokens.length ∧ (∃ token ∈ tokens, found.startLine = token.start.line) ∧
      ∃ token ∈ tokens, found.endLine = token.stop.line

/-- A yield of matches that are backed. Where it ends early, the index is corrupt. -/
structure Yield.Fair (reader : Reader) (yield : Yield) : Prop where
  found : ∀ found ∈ yield.found, Backed reader found
  failure : ∀ fault, yield.failure = some fault → ∃ path cause, fault = .indexCorrupt path cause

theorem Yield.Fair.append {left right : Yield} (first : left.Fair reader) (second : right.Fair reader) :
    (left.append right).Fair reader := by
  unfold Yield.append
  split
  · rename_i fault failed
    exact ⟨first.found, fun other same => first.failure other (failed.trans same)⟩
  · exact ⟨fun found member => (List.mem_append.mp member).elim (first.found found)
      (second.found found), second.failure⟩

theorem Yield.Fair.nothing : Yield.Fair reader ⟨[], none⟩ where
  found := by simp
  failure := by simp

/-- Starts at which a whole query fits below the limit of a column. -/
def Placed (query : Query) (starts : List Int) : Prop :=
  ∀ start ∈ starts, 0 ≤ start ∧ start + query.width < columnLimit

theorem backed_of_matchesIn {file : Int} {window : Window} {tokens : List SeenToken}
    (known : 0 ≤ file ∧ file < reader.entries.length) (placed : Placed query window.starts)
    (read : reader.window file window.first window.stop = .ok tokens) {found : Match}
    (member : found ∈ matchesIn query file window tokens) : Backed reader found := by
  obtain ⟨start, inside, matched⟩ := List.mem_filterMap.mp member
  obtain ⟨nonneg, small⟩ := placed start inside
  have width := width_pos query
  simp only [sliceRow_toArray] at matched
  cases run : slice tokens (start - window.first) (start - window.first + query.width) with
  | nil =>
      rw [run] at matched
      cases matched
  | cons first rest =>
      have part : ∀ token ∈ first :: rest, token ∈ tokens := by
        intro token taken
        rw [← run] at taken
        exact List.mem_of_mem_drop (List.mem_of_mem_take taken)
      have bound := lt_length_of_slice (run ▸ List.cons_ne_nil first rest)
      rw [run, matchAt] at matched
      split at matched
      · cases matched
        obtain ⟨least, leastIn, same⟩ := leastLine_mem first rest
        obtain ⟨greatest, greatestIn, alike⟩ := greatestLine_mem first rest
        exact ⟨known, ⟨nonneg, by simp only; omega⟩, by simp only; omega, _, _, tokens, read,
          by simp only; omega, ⟨least, part least leastIn, same⟩, greatest, part greatest greatestIn,
          alike⟩
      · cases matched

theorem searchWindows_fair (orderly : reader.Orderly) {file : Int}
    (known : 0 ≤ file ∧ file < reader.entries.length) {windows : List Window}
    (spans : ∀ window ∈ windows, window.Spans query.width)
    (placed : ∀ window ∈ windows, Placed query window.starts) :
    (searchWindows reader query file windows).Fair reader := by
  induction windows with
  | nil => exact .nothing
  | cons window rest ih =>
      have own := placed window List.mem_cons_self
      have span := spans window List.mem_cons_self
      -- The window ends one query behind its last start, which is still below the limit.
      obtain ⟨low, high⟩ := own _ span.first_mem
      obtain ⟨last, inside, stop⟩ := span.exists_stop
      obtain ⟨lower, upper⟩ := own last inside
      have reads := orderly.windows file window.first window.stop known.1 known.2 low (by omega)
        (by omega) (by omega)
      rw [searchWindows]
      cases read : reader.window file window.first window.stop with
      | error fault =>
          refine ⟨by simp, ?_⟩
          rintro _ ⟨⟩
          exact reads fault read
      | ok tokens =>
          refine Yield.Fair.append ⟨fun found member => ?_, by simp⟩
            (ih (fun other member => spans other (List.mem_cons_of_mem _ member))
              (fun other member => placed other (List.mem_cons_of_mem _ member)))
          exact backed_of_matchesIn known own read member

theorem entry_of_known {file : Int} (known : 0 ≤ file ∧ file < reader.entries.length) :
    ∃ entry ∈ reader.entries, reader.entry file = .ok entry := by
  obtain ⟨number, rfl⟩ := Int.eq_ofNat_of_zero_le known.1
  have inside : number < reader.entries.length := by omega
  refine ⟨reader.entries[number], List.getElem_mem inside, ?_⟩
  rw [Reader.entry, at?_natCast, List.getElem?_eq_getElem inside]

theorem searchFile_fair (orderly : reader.Orderly) {file : Int}
    (known : 0 ≤ file ∧ file < reader.entries.length) {places : List Int}
    (nonneg : ∀ place ∈ places, 0 ≤ place) : (searchFile reader query file places).Fair reader := by
  obtain ⟨entry, listed, told⟩ := entry_of_known known
  rw [searchFile, told]
  refine searchWindows_fair orderly known windows_spans (fun window member start inside => ?_)
  obtain ⟨place, short⟩ := List.mem_filter.mp ((starts_sublist member).subset inside)
  exact ⟨nonneg start place, orderly.counts entry listed _ short⟩

theorem searchGroups_fair (orderly : reader.Orderly) {parts : List (Int × List Int)}
    (known : ∀ part ∈ parts, (0 ≤ part.1 ∧ part.1 < reader.entries.length) ∧
      ∀ place ∈ part.2, 0 ≤ place) : (searchGroups reader query parts).Fair reader := by
  induction parts with
  | nil => exact .nothing
  | cons part rest ih =>
      obtain ⟨file, places⟩ := part
      obtain ⟨inside, nonneg⟩ := known _ List.mem_cons_self
      exact (searchFile_fair orderly inside nonneg).append
        (ih (fun other member => known other (List.mem_cons_of_mem _ member)))

theorem verify_fair (orderly : reader.Orderly) {identity : Identity} {candidates : List Posting}
    (listed : reader.postings identity = .ok candidates) :
    (verify reader query candidates).Fair reader := by
  refine searchGroups_fair orderly (fun part member => ?_)
  have named (place : Int) (inside : place ∈ part.2) :=
    orderly.named identity candidates listed ⟨part.1, place⟩
      ((group_sublist member).subset (List.mem_map_of_mem inside))
  obtain ⟨place, rest, split⟩ := List.exists_cons_of_ne_nil (group_nonempty candidates part member)
  obtain ⟨low, high, _⟩ := named place (by simp [split])
  exact ⟨⟨low, high⟩, fun place inside => (named place inside).2.2⟩

theorem linesOf_backed (orderly : reader.Orderly) {found : Match} (backed : Backed reader found)
    {source : Bytes} (held : reader.source found.file = .ok source) :
    ∃ lines, linesOf found = .ok lines := by
  obtain ⟨first, stop, tokens, read, _, ⟨least, leastIn, begins⟩, greatest, greatestIn, ends⟩ :=
    backed.tokens
  obtain ⟨line, here⟩ := (orderly.legible _ _ _ _ _ read held least leastIn).start.line
  obtain ⟨other, there⟩ := (orderly.legible _ _ _ _ _ read held greatest greatestIn).stop.line
  exact ⟨(line, other), by simp only [linesOf, begins, ends, here, there, lineOf]⟩

/-- Tokens between characters of a text can be shown. -/
theorem renderFrom_of_legible {found : Match} {source : Bytes} {first : SeenToken}
    {rest : List SeenToken} {entry : FileEntry} {lines : Int × Int}
    (taken : reader.window found.file found.first (found.last + 1) = .ok (first :: rest))
    (whole : Text.Utf8.WellFormed source) (legible : ∀ token ∈ first :: rest, token.Legible source)
    (told : reader.entry found.file = .ok entry) (numbered : linesOf found = .ok lines) :
    ∃ hit, renderFrom reader found source = .ok hit := by
  obtain ⟨begins, begun, opening⟩ := (legible first List.mem_cons_self).start.offset
  obtain ⟨ends, ended, closing⟩ :=
    (legible (rest.getLastD first) List.getLastD_mem_cons).stop.offset
  obtain ⟨before, front⟩ := decodeSlice_of_cuts (cut_lineStart opening) opening
  obtain ⟨marked, middle⟩ := decodeSlice_of_cuts opening closing
  obtain ⟨text, shown⟩ := decodeSlice_of_cuts (cut_lineStart opening)
    (cut_dropReturn whole (cut_lineEnd whole ends) (lineStart source begins))
  simp only [renderFrom, taken, begun, ended, offsetOf, ok_bind, front, middle, told, shown, numbered]
  exact ⟨_, rfl⟩

theorem renderFrom_backed (orderly : reader.Orderly) {found : Match} (backed : Backed reader found)
    {source : Bytes} (held : reader.source found.file = .ok source) :
    CorruptAtWorst (renderFrom reader found source) := by
  obtain ⟨low, ordered⟩ := backed.first
  have bound := backed.last
  have reads : CorruptAtWorst (reader.window found.file found.first (found.last + 1)) :=
    orderly.windows _ _ _ backed.file.1 backed.file.2 low (by omega) (by omega) bound
  cases taken : reader.window found.file found.first (found.last + 1) with
  | error fault =>
      obtain ⟨path, cause, rfl⟩ := reads fault taken
      rw [renderFrom, taken]
      exact .error path cause
  | ok tokens =>
      cases tokens with
      | nil =>
          -- The match begins inside rows that were read before, so some row is there.
          obtain ⟨first, stop, others, read, inside, ⟨least, leastIn, _⟩, _⟩ := backed.tokens
          exact absurd rfl (orderly.gapless _ _ _ _ read (List.ne_nil_of_mem leastIn) _ _ _ low
            inside (by omega) taken)
      | cons first rest =>
          obtain ⟨entry, _, told⟩ := entry_of_known backed.file
          obtain ⟨lines, numbered⟩ := linesOf_backed orderly backed held
          obtain ⟨hit, shown⟩ := renderFrom_of_legible taken (orderly.texts _ _ held)
            (orderly.legible _ _ _ _ _ taken held) told numbered
          rw [shown]
          exact .ok hit

namespace Progress

/-- One match more, and one file more if it is not the file at hand. -/
def counted (p : Progress) (file : Int) : Progress :=
  if p.file = some file then { p with total := p.total + 1 }
  else { p with total := p.total + 1, files := p.files + 1, file := some file, source := [] }

/-- The bytes at hand, or else those of the file. -/
def bytes (p : Progress) (reader : Reader) (file : Int) : Except Fault Bytes :=
  if p.source.isEmpty then reader.source file else .ok p.source

theorem step_eq (p : Progress) (reader : Reader) (limit : Option Nat) (found : Match) :
    p.step reader limit found =
      if limit.any (fun most => most ≤ (p.counted found.file).hits.length) then
        .ok (p.counted found.file)
      else do
        let source ← (p.counted found.file).bytes reader found.file
        let hit ← renderFrom reader found source
        return { p.counted found.file with source, hits := hit :: (p.counted found.file).hits } := by
  change (if limit.any (fun most => most ≤ (p.counted found.file).hits.length) then
    Except.ok (p.counted found.file) else _) = _
  refine if_congr Iff.rfl rfl ?_
  exact (apply_ite (fun read : Except Fault Bytes => read >>= _) _ _ _).symm

/-- The bytes at hand are those of the file at hand. -/
def Kept (reader : Reader) (p : Progress) : Prop :=
  p.source ≠ [] → ∃ file, p.file = some file ∧ reader.source file = .ok p.source

theorem Kept.start : Kept reader .start := fun held => absurd rfl held

theorem Kept.counted {p : Progress} (kept : p.Kept reader) (file : Int) :
    (p.counted file).Kept reader ∧ (p.counted file).file = some file := by
  rw [Progress.counted]
  split
  · rename_i same
    exact ⟨kept, same⟩
  · exact ⟨fun held => absurd rfl held, rfl⟩

theorem Kept.bytes_eq {p : Progress} (kept : p.Kept reader) {file : Int} (here : p.file = some file) :
    p.bytes reader file = reader.source file := by
  unfold bytes
  split
  · rfl
  · rename_i some_
    obtain ⟨other, same, held⟩ := kept (by simpa using some_)
    cases here.symm.trans same
    exact held.symm

theorem Kept.step (orderly : reader.Orderly) {limit : Option Nat} {p : Progress}
    (kept : p.Kept reader) {found : Match} (backed : Backed reader found) :
    CorruptAtWorst (p.step reader limit found) ∧
      ∀ after, p.step reader limit found = .ok after → after.Kept reader := by
  obtain ⟨kept, here⟩ := kept.counted found.file
  rw [step_eq]
  generalize p.counted found.file = q at kept here
  rw [kept.bytes_eq here]
  have read := orderly.sources _ backed.file.1 backed.file.2
  split
  · refine ⟨.ok q, ?_⟩
    rintro _ ⟨⟩
    exact kept
  · refine ⟨read.bind (fun source got =>
      (renderFrom_backed orderly backed got).bind (fun hit _ => .ok _)), ?_⟩
    intro after done
    obtain ⟨source, got, done⟩ := bind_eq_ok.mp done
    obtain ⟨hit, _, done⟩ := bind_eq_ok.mp done
    cases done
    exact fun _ => ⟨found.file, here, got⟩

end Progress

theorem CorruptAtWorst.foldlM {α β : Type} {step : β → α → Except Fault β} (good : β → Prop)
    {xs : List α} (each : ∀ b, good b → ∀ a ∈ xs,
      CorruptAtWorst (step b a) ∧ ∀ c, step b a = .ok c → good c) {b : β} (start : good b) :
    CorruptAtWorst (xs.foldlM step b) := by
  induction xs generalizing b with
  | nil => exact .ok b
  | cons a rest ih =>
      obtain ⟨first, keeps⟩ := each b start a List.mem_cons_self
      rw [List.foldlM_cons]
      exact first.bind (fun c stepped => ih (fun d held other member =>
        each d held other (List.mem_cons_of_mem _ member)) (keeps c stepped))

end Search

theorem Reader.Orderly.search {reader : Reader} (orderly : reader.Orderly) (query : Query)
    {limit : Option Int} (nonneg : ∀ most ∈ limit, 0 ≤ most) :
    CorruptAtWorst (reader.search query limit) := by
  obtain ⟨most, meant⟩ : ∃ most, effectiveLimit limit = .ok most := by
    cases limit with
    | none => exact ⟨none, rfl⟩
    | some n =>
        have low : ¬ n < 0 := by
          have bound := nonneg n rfl
          omega
        rw [effectiveLimit, if_neg low]
        split <;> exact ⟨_, rfl⟩
  rw [Reader.search, meant, ok_bind]
  refine CorruptAtWorst.bind (orderly.lists _) (fun candidates listed => ?_)
  have fair : (verify reader query candidates).Fair reader := verify_fair orderly listed
  refine CorruptAtWorst.bind ?_ (fun progress _ => ?_)
  -- From match to match, the bytes at hand stay those of the file at hand.
  · exact CorruptAtWorst.foldlM (Progress.Kept reader)
      (fun p kept found member => kept.step orderly (fair.found found member)) .start
  · split
    · rename_i fault failed
      obtain ⟨path, cause, rfl⟩ := fair.failure fault failed
      exact .error path cause
    · exact .ok _

end TokenSearch
