import TokenSearch.Artifact.Blob
import TokenSearch.Proofs.Data.Result

namespace TokenSearch.Artifact.Blob

/-! Posting lists read back from their blobs. -/

/-- The numbers that fit into a word. -/
def IsWord (n : Int) : Prop := 0 ≤ n ∧ n < wordLimit

theorem encodeWord_of_isWord {n : Int} (word : IsWord n) :
    encodeWord n = .ok [UInt8.ofNat (n.toNat % 256), UInt8.ofNat (n.toNat / 256 % 256),
      UInt8.ofNat (n.toNat / 65536 % 256), UInt8.ofNat (n.toNat / 16777216 % 256)] := by
  obtain ⟨lower, upper⟩ := word
  have positive : ¬ n < 0 := by omega
  have narrow : ¬ wordLimit ≤ n := by omega
  have long : ¬ longWordLimit ≤ n := by
    simp only [wordLimit, longWordLimit] at upper ⊢
    omega
  rw [encodeWord, if_neg positive, if_neg long, if_neg narrow]

theorem isWord_of_encodeWord {n : Int} {bytes : Bytes} (encoded : encodeWord n = .ok bytes) :
    IsWord n := by
  unfold encodeWord at encoded
  split at encoded
  · contradiction
  · split at encoded
    · contradiction
    · split at encoded
      · contradiction
      · constructor <;> omega

theorem isWord_of_encode {postings : List Posting} {blob : Bytes}
    (encoded : encode postings = .ok blob) :
    ∀ posting ∈ postings, IsWord posting.file ∧ IsWord posting.token := by
  induction postings generalizing blob with
  | nil => simp
  | cons posting rest ih =>
      obtain ⟨file, first, encoded⟩ := Data.bind_eq_ok.mp encoded
      obtain ⟨token, second, encoded⟩ := Data.bind_eq_ok.mp encoded
      obtain ⟨others, later, _⟩ := Data.bind_eq_ok.mp encoded
      exact List.forall_mem_cons.mpr
        ⟨⟨isWord_of_encodeWord first, isWord_of_encodeWord second⟩, ih later⟩

theorem toNat_byte (n : Nat) : (UInt8.ofNat (n % 256)).toNat = n % 256 :=
  UInt8.toNat_ofNat_of_lt' (Nat.mod_lt _ (by decide))

theorem decodeWord_bytes {n : Int} (word : IsWord n) :
    decodeWord false (UInt8.ofNat (n.toNat % 256)) (UInt8.ofNat (n.toNat / 256 % 256))
      (UInt8.ofNat (n.toNat / 65536 % 256)) (UInt8.ofNat (n.toNat / 16777216 % 256)) = n := by
  obtain ⟨lower, upper⟩ := word
  simp only [wordLimit] at upper
  simp only [decodeWord, toNat_byte, Bool.false_eq_true, if_false]
  omega

theorem words_of_encode {postings : List Posting}
    (fit : ∀ posting ∈ postings, IsWord posting.file ∧ IsWord posting.token) :
    ∃ blob, encode postings = .ok blob ∧
      words false blob = .ok (postings.flatMap (fun posting => [posting.file, posting.token])) := by
  induction postings with
  | nil => exact ⟨[], rfl, rfl⟩
  | cons posting rest ih =>
      obtain ⟨file, token⟩ := fit posting List.mem_cons_self
      obtain ⟨blob, encoded, decoded⟩ :=
        ih (fun other member => fit other (List.mem_cons_of_mem _ member))
      refine ⟨_, by rw [encode, encodeWord_of_isWord file, encodeWord_of_isWord token, encoded]; rfl, ?_⟩
      simp only [List.cons_append, List.nil_append, words, decoded, decodeWord_bytes file,
        decodeWord_bytes token]
      rfl

theorem pairs_flatten (postings : List Posting) :
    pairs (postings.flatMap (fun posting => [posting.file, posting.token])) = some postings := by
  induction postings with
  | nil => rfl
  | cons posting rest ih => simp [pairs, ih]

/-- A list of postings that fit into words has a blob, and the blob reads back as the list. -/
theorem decode_encode {postings : List Posting}
    (fit : ∀ posting ∈ postings, IsWord posting.file ∧ IsWord posting.token) :
    ∃ blob, encode postings = .ok blob ∧
      ∀ path text, decode path text false blob = .ok postings := by
  obtain ⟨blob, encoded, decoded⟩ := words_of_encode fit
  refine ⟨blob, encoded, fun path text => ?_⟩
  rw [decode, decoded]
  simp only [bind, Except.bind, pairs_flatten]
  rfl

variable {swapped : Bool} {blob : Bytes}

theorem decodeWord_nonneg (swapped : Bool) (a b c d : UInt8) : 0 ≤ decodeWord swapped a b c d := by
  rw [decodeWord]
  split <;> omega

/-- A blob of whole words has words, none of them below zero. -/
theorem words_of_dvd (whole : 4 ∣ blob.length) :
    ∃ numbers, words swapped blob = .ok numbers ∧ ∀ n ∈ numbers, 0 ≤ n := by
  fun_induction words swapped blob with
  | case1 => exact ⟨[], rfl, nofun⟩
  | case2 a b c d rest ih =>
      have left : 4 ∣ rest.length := by
        simp only [List.length_cons] at whole
        omega
      obtain ⟨numbers, later, nonneg⟩ := ih left
      rw [later]
      exact ⟨_, rfl, List.forall_mem_cons.mpr ⟨decodeWord_nonneg swapped a b c d, nonneg⟩⟩
  | case3 rest none_ some_ =>
      match rest with
      | [] => exact absurd rfl none_
      | [_] | [_, _] | [_, _, _] =>
          simp only [List.length_cons, List.length_nil] at whole
          omega
      | a :: b :: c :: d :: rest => exact absurd rfl (some_ a b c d rest)

theorem dvd_of_words {numbers : List Int} (read : words swapped blob = .ok numbers) :
    4 ∣ blob.length := by
  fun_induction words swapped blob generalizing numbers with
  | case1 => exact Nat.dvd_zero 4
  | case2 a b c d rest ih =>
      obtain ⟨others, later, _⟩ := Data.bind_eq_ok.mp read
      have left := ih later
      simp only [List.length_cons]
      omega
  | case3 => cases read

theorem mem_of_pairs {numbers : List Int} {postings : List Posting}
    (paired : pairs numbers = some postings) :
    ∀ posting ∈ postings, posting.file ∈ numbers ∧ posting.token ∈ numbers := by
  fun_induction pairs numbers generalizing postings with
  | case1 =>
      cases paired
      simp
  | case2 file token rest ih =>
      obtain ⟨others, later, rfl⟩ := Option.map_eq_some_iff.mp paired
      refine List.forall_mem_cons.mpr ⟨by simp, fun posting member => ?_⟩
      obtain ⟨file_, token_⟩ := ih later posting member
      exact ⟨List.mem_cons_of_mem _ (List.mem_cons_of_mem _ file_),
        List.mem_cons_of_mem _ (List.mem_cons_of_mem _ token_)⟩
  | case3 => cases paired

end TokenSearch.Artifact.Blob
