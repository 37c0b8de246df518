import TokenSearch.Proofs.Artifact.Readings

namespace TokenSearch.Artifact

/-! Posting lists and their blobs, in both byte orders. A list whose numbers fit is written as one
blob and read back from it, also where the bytes of each word stand the other way round; a blob of
whole pairs is one that is written for what is read from it. -/

open Data

namespace Blob

/-- The bytes of each word from the last to the first. Bytes that are no whole word stay. -/
def turnWords : Bytes → Bytes
  | a :: b :: c :: d :: rest => d :: c :: b :: a :: turnWords rest
  | rest => rest

/-- A blob in this byte order, or in the other one if it is `swapped`. -/
def arranged (swapped : Bool) (blob : Bytes) : Bytes :=
  if swapped then turnWords blob else blob

theorem turnWords_of_short {blob : Bytes} (short : blob.length < 4) : turnWords blob = blob := by
  refine turnWords.eq_2 blob (fun a b c d rest whole => ?_)
  simp only [whole, List.length_cons] at short
  omega

/-- What holds of less than a word, and of a word with bytes behind it if it holds of these, holds of
all bytes. -/
theorem word_by_word {motive : Bytes → Prop} (short : ∀ blob, blob.length < 4 → motive blob)
    (word : ∀ a b c d rest, motive rest → motive (a :: b :: c :: d :: rest)) (blob : Bytes) :
    motive blob := by
  induction length : blob.length using Nat.strongRecOn generalizing blob with
  | _ n ih =>
      by_cases few : blob.length < 4
      · exact short blob few
      · rcases blob with _ | ⟨a, _ | ⟨b, _ | ⟨c, _ | ⟨d, rest⟩⟩⟩⟩
        any_goals simp at few
        simp only [List.length_cons] at length
        exact word a b c d rest (ih rest.length (by omega) rest rfl)

theorem turnWords_turnWords (blob : Bytes) : turnWords (turnWords blob) = blob := by
  induction blob using word_by_word with
  | short blob few => rw [turnWords_of_short few, turnWords_of_short few]
  | word a b c d rest ih => rw [turnWords, turnWords, ih]

theorem arranged_arranged (swapped : Bool) (blob : Bytes) :
    arranged swapped (arranged swapped blob) = blob := by
  cases swapped with
  | false => rfl
  | true => exact turnWords_turnWords blob

theorem decodeWord_turned (swapped : Bool) (a b c d : UInt8) :
    decodeWord (!swapped) d c b a = decodeWord swapped a b c d := by
  cases swapped <;> rfl

theorem words_turned (swapped : Bool) (blob : Bytes) :
    words (!swapped) (turnWords blob) = words swapped blob := by
  induction blob using word_by_word with
  | short blob few =>
      rw [turnWords_of_short few]
      rcases blob with _ | ⟨a, _ | ⟨b, _ | ⟨c, _ | ⟨d, rest⟩⟩⟩⟩
      any_goals rfl
      simp only [List.length_cons] at few
      omega
  | word a b c d rest ih => rw [turnWords, words, words, ih, decodeWord_turned]

theorem words_arranged (swapped : Bool) (blob : Bytes) :
    words false (arranged swapped blob) = words swapped blob := by
  cases swapped with
  | false => rfl
  | true => exact words_turned true blob

/-- Turning the words of a blob and reading it in the other order changes nothing. -/
theorem decode_arranged (path : Path) (text : Cell) (swapped : Bool) (blob : Bytes) :
    decode path text swapped (arranged swapped blob) = decode path text false blob := by
  rw [decode, decode, ← words_arranged swapped, arranged_arranged]

variable {swapped : Bool} {blob : Bytes} {numbers : List Int} {postings : List Posting}

/-- Four bytes are the word of the number that they stand for. -/
theorem encodeWord_decodeWord (a b c d : UInt8) :
    encodeWord (decodeWord false a b c d) = .ok [a, b, c, d] := by
  have first := a.toNat_lt
  have second := b.toNat_lt
  have third := c.toNat_lt
  have fourth := d.toNat_lt
  have word : IsWord (decodeWord false a b c d) := by
    simp only [IsWord, wordLimit, decodeWord, Bool.false_eq_true, if_false]
    omega
  have number : (decodeWord false a b c d).toNat =
      ((d.toNat * 256 + c.toNat) * 256 + b.toNat) * 256 + a.toNat := rfl
  have byte (n : Nat) (x : UInt8) (same : n % 256 = x.toNat) : UInt8.ofNat (n % 256) = x := by
    rw [same, UInt8.ofNat_toNat]
  rw [encodeWord_of_isWord word, number, byte _ a (by omega), byte _ b (by omega),
    byte _ c (by omega), byte _ d (by omega)]

theorem words_eq_nil (read : words swapped blob = .ok []) : blob = [] := by
  unfold words at read
  split at read
  · rfl
  · obtain ⟨_, _, whole⟩ := bind_eq_ok.mp read
    cases whole
  · cases read

theorem words_eq_cons {n : Int} (read : words swapped blob = .ok (n :: numbers)) :
    ∃ a b c d rest, blob = a :: b :: c :: d :: rest ∧ n = decodeWord swapped a b c d ∧
      words swapped rest = .ok numbers := by
  unfold words at read
  split at read
  · cases read
  · obtain ⟨others, later, whole⟩ := bind_eq_ok.mp read
    cases whole
    exact ⟨_, _, _, _, _, rfl, rfl, later⟩
  · cases read

theorem length_of_words (read : words swapped blob = .ok numbers) :
    blob.length = 4 * numbers.length := by
  induction numbers generalizing blob with
  | nil => rw [words_eq_nil read]; rfl
  | cons n rest ih =>
      obtain ⟨a, b, c, d, others, rfl, _, later⟩ := words_eq_cons read
      simp only [List.length_cons, ih later]
      omega

theorem length_of_pairs (paired : pairs numbers = some postings) :
    numbers.length = 2 * postings.length := by
  fun_induction pairs numbers generalizing postings with
  | case1 => cases paired; rfl
  | case2 file token rest ih =>
      obtain ⟨others, later, rfl⟩ := Option.map_eq_some_iff.mp paired
      simp only [List.length_cons, ih later]
      omega
  | case3 => cases paired

theorem odd_of_pairs (unpaired : pairs numbers = none) : numbers.length % 2 = 1 := by
  fun_induction pairs numbers with
  | case1 => cases unpaired
  | case2 file token rest ih =>
      have later := ih (Option.map_eq_none_iff.mp unpaired)
      simp only [List.length_cons]
      omega
  | case3 => rfl

/-- A blob that could be read is the one that is written for what it holds. -/
theorem encode_of_words (read : words false blob = .ok numbers)
    (paired : pairs numbers = some postings) : encode postings = .ok blob := by
  fun_induction pairs numbers generalizing blob postings with
  | case1 =>
      cases paired
      rw [words_eq_nil read]
      rfl
  | case2 file token rest ih =>
      obtain ⟨others, later, rfl⟩ := Option.map_eq_some_iff.mp paired
      obtain ⟨a, b, c, d, behind, rfl, rfl, next⟩ := words_eq_cons read
      obtain ⟨e, f, g, h, more, rfl, rfl, final⟩ := words_eq_cons next
      rw [encode, encodeWord_decodeWord, encodeWord_decodeWord, ih final later]
      rfl
  | case3 => cases paired

variable {path : Path} {text : Cell}

/-- A blob of whole pairs can be read, and is written for what is read from it. -/
theorem encode_decode (whole : 8 ∣ blob.length) :
    ∃ postings, decode path text swapped blob = .ok postings ∧
      encode postings = .ok (arranged swapped blob) := by
  obtain ⟨numbers, read, _⟩ := @words_of_dvd swapped blob (Nat.dvd_trans ⟨2, rfl⟩ whole)
  have length := length_of_words read
  cases paired : pairs numbers with
  | none =>
      have odd := odd_of_pairs paired
      omega
  | some postings =>
      refine ⟨postings, ?_, encode_of_words ((words_arranged swapped blob).trans read) paired⟩
      rw [decode, read, ok_bind, paired]
      rfl

theorem decode_of_odd (odd : blob.length % 8 = 4) :
    decode path text swapped blob = .error (.indexCorrupt path (.oddBlob text)) := by
  obtain ⟨numbers, read, _⟩ := @words_of_dvd swapped blob (by omega)
  have length := length_of_words read
  rw [decode, read, ok_bind]
  cases paired : pairs numbers with
  | none => rfl
  | some postings =>
      have even := length_of_pairs paired
      omega

theorem words_of_uneven (uneven : ¬ 4 ∣ blob.length) : words swapped blob = .error .unevenBlob := by
  fun_induction words swapped blob with
  | case1 => exact absurd (Nat.dvd_zero 4) uneven
  | case2 a b c d rest ih =>
      have left : ¬ 4 ∣ rest.length := by
        simp only [List.length_cons] at uneven
        omega
      rw [ih left]
      rfl
  | case3 => rfl

theorem decode_of_uneven (uneven : ¬ 4 ∣ blob.length) :
    decode path text swapped blob = .error .unevenBlob := by
  rw [decode, words_of_uneven uneven]
  rfl

theorem label_of_encodeWord {n : Int} {fault : Fault} (refused : encodeWord n = .error fault) :
    fault.label = "OverflowError" := by
  unfold encodeWord at refused
  split at refused
  · cases refused; rfl
  · split at refused
    · cases refused; rfl
    · split at refused
      · cases refused; rfl
      · cases refused

theorem label_of_encode {fault : Fault} (refused : encode postings = .error fault) :
    fault.label = "OverflowError" := by
  induction postings with
  | nil => cases refused
  | cons posting rest ih =>
      rcases bind_eq_error.mp refused with file | ⟨_, _, refused⟩
      · exact label_of_encodeWord file
      · rcases bind_eq_error.mp refused with token | ⟨_, _, refused⟩
        · exact label_of_encodeWord token
        · rcases bind_eq_error.mp refused with later | ⟨_, _, done⟩
          · exact ih later
          · cases done

end Blob

/-- A row with its blob in this byte order, or in the other one if it is `swapped`. -/
def PostingRow.arranged (swapped : Bool) (row : PostingRow) : PostingRow :=
  match row.positions with
  | .blob blob => { row with positions := .blob (Blob.arranged swapped blob) }
  | _ => row

@[simp]
theorem PostingRow.kind_arranged (swapped : Bool) (row : PostingRow) :
    (row.arranged swapped).kind = row.kind := by
  unfold arranged
  split <;> rfl

@[simp]
theorem PostingRow.text_arranged (swapped : Bool) (row : PostingRow) :
    (row.arranged swapped).text = row.text := by
  unfold arranged
  split <;> rfl

/-- The row of an identity, the first one with its kind and its text, holds a blob. -/
def Tables.Holds (held : Tables) (identity : SeenIdentity) (blob : Bytes) : Prop :=
  ∃ rows row, held.postings = some rows ∧
    rows.find? (fun row => row.kind = .text identity.kind.name && row.text = identity.text) =
      some row ∧
    row.positions = .blob blob

theorem Tables.Holds.postings_eq {held : Tables} {identity : SeenIdentity} {blob : Bytes}
    (holds : held.Holds identity blob) (stored : Stored) :
    stored.postings (.tables held) identity =
      Blob.decode stored.path identity.text stored.isSwapped blob := by
  obtain ⟨rows, row, there, found, positions⟩ := holds
  rw [Stored.postings, Content.table, there]
  simp only [ok_bind, found, positions]

theorem holds_of_get? {map : PostingMap} {identity : Identity} {postings : List Posting}
    {blob : Bytes} (listed : Assoc.get? map identity = some postings)
    (encoded : Blob.encode postings = .ok blob) (swapped : Bool) {held : Tables}
    (there : held.postings = some ((map.map postingRow).map (PostingRow.arranged swapped))) :
    held.Holds identity.seen (Blob.arranged swapped blob) := by
  refine ⟨_, (postingRow (identity, postings)).arranged swapped, there, ?_, ?_⟩
  · have found := find?_postingRow map identity
    rw [listed] at found
    rw [List.find?_map]
    simpa [Function.comp_def, Identity.seen] using congrArg (Option.map _) found
  · rw [PostingRow.arranged, postingRow, encoded]
    rfl

/-- Rows are refused only for a number of their lists that does not fit. -/
theorem label_of_postingRows {map : PostingMap} {fault : Fault}
    (refused : postingRows map = .error fault) : fault.label = "OverflowError" := by
  induction map with
  | nil => cases refused
  | cons entry rest ih =>
      rcases bind_eq_error.mp refused with blob | ⟨_, _, refused⟩
      · exact Blob.label_of_encode blob
      · rcases bind_eq_error.mp refused with later | ⟨_, _, done⟩
        · exact ih later
        · cases done

theorem postingRows_refused_iff {map : PostingMap} :
    (∃ fault, postingRows map = .error fault ∧ fault.label = "OverflowError") ↔
      ∃ entry ∈ map, ∃ posting ∈ entry.2,
        ¬ (Blob.IsWord posting.file ∧ Blob.IsWord posting.token) := by
  constructor
  · rintro ⟨fault, refused, _⟩
    by_contra fit
    push Not at fit
    rw [postingRows_of_words fit] at refused
    cases refused
  · rintro ⟨entry, member, posting, inside, misfit⟩
    cases written : postingRows map with
    | ok rows => exact absurd (words_of_postingRows written entry member posting inside) misfit
    | error fault => exact ⟨fault, rfl, label_of_postingRows written⟩

/-- Posting lists and blobs belong together one to one, in either byte order. Lists whose numbers fit
into words are written as rows from which the same lists are read, also when every word of the blobs
is turned and the header names the other order; any blob of whole pairs is the one that is written
for the list read from it. A blob of an odd number of words is corrupt, one that is not made of
words cannot be read, and just the lists with a number that does not fit are refused. -/
theorem blobs_biject :
    (∀ map : PostingMap, (∀ entry ∈ map, ∀ posting ∈ entry.2,
        Blob.IsWord posting.file ∧ Blob.IsWord posting.token) →
      ∃ rows, postingRows map = .ok rows ∧
        ∀ (stored : Stored) (held : Tables),
          held.postings = some (rows.map (PostingRow.arranged stored.isSwapped)) →
          ∀ identity postings, Assoc.get? map identity = some postings →
            stored.postings (.tables held) identity.seen = .ok postings) ∧
    (∀ (stored : Stored) (held : Tables) (identity : SeenIdentity) (blob : Bytes),
      held.Holds identity blob →
        (8 ∣ blob.length → ∃ postings, stored.postings (.tables held) identity = .ok postings ∧
          Blob.encode postings = .ok (Blob.arranged stored.isSwapped blob)) ∧
        (blob.length % 8 = 4 → stored.postings (.tables held) identity =
          .error (.indexCorrupt stored.path (.oddBlob identity.text))) ∧
        (¬ 4 ∣ blob.length → stored.postings (.tables held) identity = .error .unevenBlob)) ∧
    ∀ map : PostingMap,
      (∃ fault, postingRows map = .error fault ∧ fault.label = "OverflowError") ↔
        ∃ entry ∈ map, ∃ posting ∈ entry.2,
          ¬ (Blob.IsWord posting.file ∧ Blob.IsWord posting.token) := by
  refine ⟨?_, ?_, fun map => postingRows_refused_iff⟩
  · intro map fit
    refine ⟨_, postingRows_of_words fit, ?_⟩
    intro stored held there identity postings listed
    obtain ⟨blob, encoded, decoded⟩ := Blob.decode_encode (fit _ (Assoc.mem_of_get? listed))
    rw [(holds_of_get? listed encoded _ there).postings_eq, Blob.decode_arranged, decoded]
  · intro stored held identity blob holds
    rw [holds.postings_eq]
    exact ⟨Blob.encode_decode, Blob.decode_of_odd, Blob.decode_of_uneven⟩

/-- An artifact from a machine with the other byte order. -/
def turnedStored : Stored :=
  ⟨.ofString "index.db", [⟨.text "byteorder", .text "big"⟩], []⟩

/-- Tables that have nothing but these posting rows. -/
def Tables.ofPostings (rows : List PostingRow) : Tables :=
  ⟨none, none, none, some rows, none⟩

def wideIdentity : Identity := ⟨.identifier, "x"⟩

/-- A posting list with the greatest number that fits. -/
def wideMap : PostingMap :=
  [(wideIdentity, [⟨0, 1⟩, ⟨258, 4294967295⟩])]

theorem holds_ofPostings (blob : Bytes) :
    (Tables.ofPostings [⟨.text "identifier", .text "x", .blob blob⟩]).Holds wideIdentity.seen
      blob :=
  ⟨_, _, rfl, rfl, rfl⟩

theorem turnedStored_reads :
    (∃ rows, postingRows wideMap = .ok rows ∧
      turnedStored.postings (.tables (.ofPostings (rows.map (PostingRow.arranged true))))
        wideIdentity.seen = .ok [⟨0, 1⟩, ⟨258, 4294967295⟩]) ∧
    (∃ postings, turnedStored.postings (.tables (.ofPostings
          [⟨.text "identifier", .text "x", .blob [0, 0, 0, 1, 0, 0, 1, 2]⟩])) wideIdentity.seen =
        .ok postings ∧ Blob.encode postings = .ok [1, 0, 0, 0, 2, 1, 0, 0]) ∧
    turnedStored.postings (.tables (.ofPostings
        [⟨.text "identifier", .text "x", .blob [0, 0, 0, 1]⟩])) wideIdentity.seen =
      .error (.indexCorrupt turnedStored.path (.oddBlob (.text "x"))) ∧
    turnedStored.postings (.tables (.ofPostings
        [⟨.text "identifier", .text "x", .blob [0, 0, 0]⟩])) wideIdentity.seen =
      .error .unevenBlob := by
  obtain ⟨read, taken, _⟩ := blobs_biject
  refine ⟨?_, ?_, ?_, ?_⟩
  · have fit : ∀ entry ∈ wideMap, ∀ posting ∈ entry.2,
        Blob.IsWord posting.file ∧ Blob.IsWord posting.token := by
      simp [wideMap, Blob.IsWord, Blob.wordLimit]
    obtain ⟨rows, written, back⟩ := read wideMap fit
    exact ⟨rows, written, back turnedStored _ rfl wideIdentity _ rfl⟩
  · exact (taken turnedStored _ _ _ (holds_ofPostings _)).1 (by decide)
  · exact (taken turnedStored _ _ _ (holds_ofPostings _)).2.1 (by decide)
  · exact (taken turnedStored _ _ _ (holds_ofPostings _)).2.2 (by decide)

end TokenSearch.Artifact
