import TokenSearch.Proofs.Text.Utf8

namespace TokenSearch.Text.Utf8

/-! Where bytes cease to be text: the first ill-formed sequence stands behind the longest text that
starts them. -/

theorem Begun.seen_eq {pending : Pending} {front : Bytes} (begun : Begun pending front) :
    pending.seen = front.length := by
  cases begun <;> rfl

/-- What was decoded before an ill-formed sequence are the bytes in front of it. -/
theorem split_of_decodeFrom {offset behind : Nat} {pending : Option Pending} {front rest : Bytes}
    {chars : List Char} {fault : Malformed} (progress : Progress pending front)
    (here : offset = behind + front.length)
    (failed : decodeFrom offset pending chars rest = .error fault) :
    ∃ text tail, front ++ rest = encode text ++ tail ∧
      fault.offset = behind + (encode text).length := by
  -- `front` is what has been read of the character that is not complete yet
  induction rest generalizing offset behind pending front chars with
  | nil =>
      cases pending with
      | none => simp [decodeFrom] at failed
      | some p =>
          have begun : Begun p front := progress
          simp only [decodeFrom, Except.error.injEq] at failed
          refine ⟨[], front ++ [], rfl, ?_⟩
          rw [← failed, here, begun.seen_eq]
          exact Nat.add_sub_cancel _ _
  | cons byte rest ih =>
      cases pending with
      | none =>
          have empty : front = [] := progress
          subst empty
          simp only [decodeFrom] at failed
          cases announced : lead byte with
          | single c =>
              rw [announced] at failed
              obtain ⟨text, tail, split, place⟩ := @ih _ (behind + 1) none [] _ rfl (by simp [here]) failed
              rw [List.nil_append] at split
              refine ⟨c :: text, tail, ?_, ?_⟩
              · simp [lead_single announced, split]
              · rw [place, encode_cons, lead_single announced, List.length_append]
                simp only [List.length_singleton]
                omega
          | opens p =>
              rw [announced] at failed
              exact @ih _ behind (some p) [byte] _ (lead_opens announced) (by simp [here]) failed
          | invalid =>
              rw [announced] at failed
              cases failed
              exact ⟨[], byte :: rest, rfl, here⟩
      | some p =>
          have begun : Begun p front := progress
          simp only [decodeFrom] at failed
          cases fed : p.feed byte with
          | complete c =>
              rw [fed] at failed
              obtain ⟨text, tail, split, place⟩ :=
                @ih _ (behind + (front ++ [byte]).length) none [] _ rfl (by simp [here]; omega) failed
              rw [List.nil_append] at split
              refine ⟨c :: text, tail, ?_, ?_⟩
              · rw [encode_cons, feed_complete begun fed, split]
                simp
              · rw [place, encode_cons, feed_complete begun fed, @List.length_append _ (front ++ [byte])]
                omega
          | more q =>
              rw [fed] at failed
              obtain ⟨text, tail, split, place⟩ :=
                @ih _ behind (some q) (front ++ [byte]) _ (feed_more begun fed) (by simp [here]; omega)
                  failed
              exact ⟨text, tail, by rw [← split]; simp, place⟩
          | refused =>
              rw [fed] at failed
              cases failed
              refine ⟨[], front ++ byte :: rest, rfl, ?_⟩
              rw [here, begun.seen_eq]
              exact Nat.add_sub_cancel _ _

/-- The bytes `before` are a text, and no longer start of `bytes` is one. -/
structure LongestText (before bytes : Bytes) : Prop where
  starts : before <+: bytes
  formed : WellFormed before
  greatest : ∀ other, other <+: bytes → WellFormed other → other.length ≤ before.length

theorem longestText_of_error {bytes : Bytes} {fault : Malformed}
    (failed : decode bytes = .error fault) : LongestText (bytes.take fault.offset) bytes := by
  obtain ⟨text, tail, split, place⟩ :=
    @split_of_decodeFrom 0 0 none [] bytes [] fault rfl rfl failed
  rw [List.nil_append] at split
  rw [Nat.zero_add] at place
  subst split
  rw [place, List.take_left]
  refine ⟨List.prefix_append _ _, ⟨text, rfl⟩, ?_⟩
  intro other starts formed
  refine Nat.not_lt.mp (fun longer => ?_)
  -- a longer text would take a character out of the ill-formed sequence
  obtain ⟨chars, rfl⟩ := formed
  obtain ⟨more, rfl⟩ : text <+: chars := by
    apply prefix_of_encode
    exact List.prefix_of_prefix_length_le (List.prefix_append _ _) starts (by omega)
  rw [encode_append, List.prefix_append_right_inj] at starts
  obtain ⟨rest, rfl⟩ := starts
  rw [encode_append, List.length_append] at longer
  rw [decode_append, decode_append] at failed
  cases decoded : decode rest with
  | ok ending => simp [decoded] at failed
  | error other =>
      simp only [decoded, Except.error.injEq] at failed
      rw [← failed] at place
      simp only at place
      omega

theorem decode_eq_error {bytes : Bytes} (malformed : ¬ WellFormed bytes) :
    ∃ fault, decode bytes = .error fault := by
  cases decoded : decode bytes with
  | ok chars => exact (malformed ⟨chars, encode_of_decode decoded⟩).elim
  | error fault => exact ⟨fault, rfl⟩

end TokenSearch.Text.Utf8
