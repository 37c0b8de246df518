import TokenSearch.Text.Utf8

namespace TokenSearch.Text.Utf8

/-! `decode` and `encode` undo each other: a text that decodes is the encoding of what it decodes
to, and every encoding decodes. -/

@[simp]
theorem encode_nil : encode [] = [] := rfl

@[simp]
theorem encode_append (left right : List Char) :
    encode (left ++ right) = encode left ++ encode right := by
  simp [encode]

@[simp]
theorem encode_cons (c : Char) (rest : List Char) :
    encode (c :: rest) = String.utf8EncodeChar c ++ encode rest := by
  simp [encode]

/-- The bytes `front` of a character have been read, and `pending` says what may follow. -/
inductive Begun : Pending → Bytes → Prop
  | two {a : UInt8} : 0xC2 ≤ a.toNat → a.toNat < 0xE0 →
      Begun ⟨a.toNat - 0xC0, 1, 0x80, 0xBF, a, 1⟩ [a]
  | three {a low high : UInt8} : 0xE0 ≤ a.toNat → a.toNat < 0xF0 →
      low.toNat = (if a.toNat = 0xE0 then 0xA0 else 0x80) →
      high.toNat = (if a.toNat = 0xED then 0x9F else 0xBF) →
      Begun ⟨a.toNat - 0xE0, 2, low, high, a, 1⟩ [a]
  | threeLast {a b : UInt8} {value : Nat} : 0xE0 ≤ a.toNat → a.toNat < 0xF0 →
      0x80 ≤ b.toNat → b.toNat ≤ 0xBF → value = (a.toNat - 0xE0) * 64 + (b.toNat - 0x80) →
      0x20 ≤ value → (value < 0x360 ∨ 0x380 ≤ value) →
      Begun ⟨value, 1, 0x80, 0xBF, a, 2⟩ [a, b]
  | four {a low high : UInt8} : 0xF0 ≤ a.toNat → a.toNat < 0xF5 →
      low.toNat = (if a.toNat = 0xF0 then 0x90 else 0x80) →
      high.toNat = (if a.toNat = 0xF4 then 0x8F else 0xBF) →
      Begun ⟨a.toNat - 0xF0, 3, low, high, a, 1⟩ [a]
  | fourThird {a b : UInt8} {value : Nat} : 0xF0 ≤ a.toNat → a.toNat < 0xF5 →
      0x80 ≤ b.toNat → b.toNat ≤ 0xBF → value = (a.toNat - 0xF0) * 64 + (b.toNat - 0x80) →
      0x10 ≤ value → value < 0x110 →
      Begun ⟨value, 2, 0x80, 0xBF, a, 2⟩ [a, b]
  | fourLast {a b c : UInt8} {value : Nat} : 0xF0 ≤ a.toNat → a.toNat < 0xF5 →
      0x80 ≤ b.toNat → b.toNat ≤ 0xBF → 0x80 ≤ c.toNat → c.toNat ≤ 0xBF →
      value = ((a.toNat - 0xF0) * 64 + (b.toNat - 0x80)) * 64 + (c.toNat - 0x80) →
      0x400 ≤ value → value < 0x4400 →
      Begun ⟨value, 1, 0x80, 0xBF, a, 3⟩ [a, b, c]

theorem val_ofNat {n : Nat} (valid : n.isValidChar) : (Char.ofNat n).val.toNat = n := by
  rw [Char.ofNat, dif_pos valid]
  rfl

theorem ofNat_eq_of_toNat {n : Nat} {byte : UInt8} (same : n = byte.toNat) :
    UInt8.ofNat n = byte := by
  subst same
  exact UInt8.ofNat_toNat

theorem lead_single {byte : UInt8} {c : Char} (announced : lead byte = .single c) :
    String.utf8EncodeChar c = [byte] := by
  unfold lead at announced
  simp only at announced
  split at announced
  · rename_i small
    cases announced
    have value : (Char.ofNat byte.toNat).val.toNat = byte.toNat := val_ofNat (by left; omega)
    have short : byte.toNat ≤ 0x7f := by omega
    simp [String.utf8EncodeChar, value, short]
  · split at announced <;> (try split at announced) <;> (try split at announced) <;>
      (try split at announced) <;> cases announced

theorem lead_opens {byte : UInt8} {pending : Pending} (announced : lead byte = .opens pending) :
    Begun pending [byte] := by
  unfold lead at announced
  simp only at announced
  split at announced
  · contradiction
  · split at announced
    · contradiction
    · split at announced
      · rw [← Lead.opens.inj announced]
        exact .two (by omega) (by omega)
      · split at announced
        · rw [← Lead.opens.inj announced]
          exact .three (by omega) (by omega) (by split <;> rfl) (by split <;> rfl)
        · split at announced
          · rw [← Lead.opens.inj announced]
            exact .four (by omega) (by omega) (by split <;> rfl) (by split <;> rfl)
          · contradiction

theorem feed_inside {pending : Pending} {byte : UInt8}
    (lower : pending.low.toNat ≤ byte.toNat) (upper : byte.toNat ≤ pending.high.toNat) :
    pending.feed byte =
      if pending.missing ≤ 1 then .complete (Char.ofNat (pending.value * 64 + (byte.toNat - 0x80)))
      else .more ⟨pending.value * 64 + (byte.toNat - 0x80), pending.missing - 1, 0x80, 0xBF,
        pending.first, pending.seen + 1⟩ := by
  have notBelow : ¬ byte < pending.low := by
    rw [UInt8.lt_iff_toNat_lt]
    omega
  have notAbove : ¬ pending.high < byte := by
    rw [UInt8.lt_iff_toNat_lt]
    omega
  simp [Pending.feed, notBelow, notAbove]

theorem bounds_of_feed {pending : Pending} {byte : UInt8} (kept : pending.feed byte ≠ .refused) :
    pending.low.toNat ≤ byte.toNat ∧ byte.toNat ≤ pending.high.toNat := by
  by_cases inside : pending.low.toNat ≤ byte.toNat ∧ byte.toNat ≤ pending.high.toNat
  · exact inside
  · have refused : pending.feed byte = .refused := by
      simp only [Pending.feed, UInt8.lt_iff_toNat_lt]
      rw [if_pos]
      simp only [Bool.or_eq_true, decide_eq_true_eq]
      omega
    contradiction

theorem feed_complete {pending : Pending} {front : Bytes} {byte : UInt8} {c : Char}
    (begun : Begun pending front) (fed : pending.feed byte = .complete c) :
    String.utf8EncodeChar c = front ++ [byte] := by
  obtain ⟨lower, upper⟩ := bounds_of_feed (by rw [fed]; simp)
  rw [feed_inside lower upper] at fed
  have tail : (0x80 : UInt8).toNat = 128 := rfl
  have tailLast : (0xBF : UInt8).toNat = 191 := rfl
  cases begun with
  | @two a first last =>
      rw [if_pos (by simp)] at fed
      rw [← Fed.complete.inj fed]
      simp only [tail, tailLast] at lower upper ⊢
      generalize number : (a.toNat - 0xC0) * 64 + (byte.toNat - 0x80) = n
      have value := val_ofNat (n := n) (by left; omega)
      have notOne : ¬ n ≤ 0x7f := by omega
      have isTwo : n ≤ 0x7ff := by omega
      simp only [String.utf8EncodeChar, value, notOne, isTwo, if_false, if_true,
        List.cons_append, List.nil_append]
      rw [ofNat_eq_of_toNat (show n / 64 % 0x20 + 0xc0 = a.toNat by omega),
        ofNat_eq_of_toNat (show n % 0x40 + 0x80 = byte.toNat by omega)]
  | three => simp at fed
  | @threeLast a b held first last second secondLast holds least apart =>
      rw [if_pos (by simp)] at fed
      rw [← Fed.complete.inj fed]
      simp only [tail, tailLast] at lower upper ⊢
      generalize number : held * 64 + (byte.toNat - 0x80) = n
      have value := val_ofNat (n := n) (by simp only [Nat.isValidChar]; omega)
      have notOne : ¬ n ≤ 0x7f := by omega
      have notTwo : ¬ n ≤ 0x7ff := by omega
      have isThree : n ≤ 0xffff := by omega
      simp only [String.utf8EncodeChar, value, notOne, notTwo, isThree, if_false, if_true,
        List.cons_append, List.nil_append]
      rw [ofNat_eq_of_toNat (show n / 4096 % 0x10 + 0xe0 = a.toNat by omega),
        ofNat_eq_of_toNat (show n / 64 % 0x40 + 0x80 = b.toNat by omega),
        ofNat_eq_of_toNat (show n % 0x40 + 0x80 = byte.toNat by omega)]
  | four => simp at fed
  | fourThird => simp at fed
  | @fourLast a b d held first last second secondLast third thirdLast holds least greatest =>
      rw [if_pos (by simp)] at fed
      rw [← Fed.complete.inj fed]
      simp only [tail, tailLast] at lower upper ⊢
      generalize number : held * 64 + (byte.toNat - 0x80) = n
      have value := val_ofNat (n := n) (by simp only [Nat.isValidChar]; omega)
      have notOne : ¬ n ≤ 0x7f := by omega
      have notTwo : ¬ n ≤ 0x7ff := by omega
      have notThree : ¬ n ≤ 0xffff := by omega
      simp only [String.utf8EncodeChar, value, notOne, notTwo, notThree, if_false,
        List.cons_append, List.nil_append]
      rw [ofNat_eq_of_toNat (show n / 262144 % 0x08 + 0xf0 = a.toNat by omega),
        ofNat_eq_of_toNat (show n / 4096 % 0x40 + 0x80 = b.toNat by omega),
        ofNat_eq_of_toNat (show n / 64 % 0x40 + 0x80 = d.toNat by omega),
        ofNat_eq_of_toNat (show n % 0x40 + 0x80 = byte.toNat by omega)]

theorem feed_more {pending next : Pending} {front : Bytes} {byte : UInt8}
    (begun : Begun pending front) (fed : pending.feed byte = .more next) :
    Begun next (front ++ [byte]) := by
  obtain ⟨lower, upper⟩ := bounds_of_feed (by rw [fed]; simp)
  rw [feed_inside lower upper] at fed
  have tail : (0x80 : UInt8).toNat = 128 := rfl
  have tailLast : (0xBF : UInt8).toNat = 191 := rfl
  cases begun with
  | two => simp at fed
  | @three a low high first last lowIs highIs =>
      rw [if_neg (by simp)] at fed
      rw [← Fed.more.inj fed]
      simp only [lowIs, highIs] at lower upper
      have least : 0x80 ≤ byte.toNat := by split at lower <;> omega
      have greatest : byte.toNat ≤ 0xBF := by split at upper <;> omega
      refine .threeLast first last least greatest rfl ?_ ?_
      · simp only
        split at lower <;> omega
      · simp only
        split at upper <;> omega
  | threeLast => simp at fed
  | @four a low high first last lowIs highIs =>
      rw [if_neg (by simp)] at fed
      rw [← Fed.more.inj fed]
      simp only [lowIs, highIs] at lower upper
      have least : 0x80 ≤ byte.toNat := by split at lower <;> omega
      have greatest : byte.toNat ≤ 0xBF := by split at upper <;> omega
      refine .fourThird first last least greatest rfl ?_ ?_
      · simp only
        split at lower <;> omega
      · simp only
        split at upper <;> omega
  | @fourThird a b held first last second secondLast holds least greatest =>
      rw [if_neg (by simp)] at fed
      rw [← Fed.more.inj fed]
      simp only [tail, tailLast] at lower upper
      exact .fourLast first last second secondLast (by omega) (by omega) (by rw [holds])
        (by simp only; omega) (by simp only; omega)
  | fourLast => simp at fed

/-- The bytes of the character in progress; between characters there are none. -/
def Progress : Option Pending → Bytes → Prop
  | none, front => front = []
  | some pending, front => Begun pending front

theorem encode_of_decodeFrom {offset : Nat} {pending : Option Pending} {front rest : Bytes}
    {chars result : List Char} (progress : Progress pending front)
    (decoded : decodeFrom offset pending chars rest = .ok result) :
    encode result = encode chars.reverse ++ front ++ rest := by
  induction rest generalizing offset pending front chars with
  | nil =>
      cases pending with
      | none =>
          cases decoded
          simp only [Progress] at progress
          simp [progress]
      | some p => simp [decodeFrom] at decoded
  | cons byte rest ih =>
      cases pending with
      | none =>
          simp only [Progress] at progress
          subst progress
          simp only [decodeFrom] at decoded
          cases announced : lead byte with
          | single c =>
              rw [announced] at decoded
              have later := @ih _ none [] _ rfl decoded
              simp [later, lead_single announced]
          | opens p =>
              rw [announced] at decoded
              have later := @ih _ (some p) [byte] _ (lead_opens announced) decoded
              simpa using later
          | invalid => simp [announced] at decoded
      | some p =>
          simp only [decodeFrom] at decoded
          cases fed : p.feed byte with
          | complete c =>
              rw [fed] at decoded
              have later := @ih _ none [] _ rfl decoded
              simp [later, feed_complete progress fed]
          | more q =>
              rw [fed] at decoded
              have later := @ih _ (some q) (front ++ [byte]) _ (feed_more progress fed) decoded
              simpa using later
          | refused => simp [fed] at decoded

theorem encode_of_decode {bytes : Bytes} {chars : List Char}
    (decoded : decode bytes = .ok chars) : encode chars = bytes := by
  simpa using @encode_of_decodeFrom _ none [] _ _ _ rfl decoded

/-- A byte that stands for the last six bits of `n`, where the bits before are known. -/
theorem feed_bits (pending : Pending) {byte : UInt8} {n : Nat}
    (lower : pending.low.toNat ≤ byte.toNat) (upper : byte.toNat ≤ pending.high.toNat)
    (bits : byte.toNat = n % 64 + 0x80) (holds : pending.value = n / 64) :
    pending.feed byte =
      if pending.missing ≤ 1 then .complete (Char.ofNat n)
      else .more ⟨n, pending.missing - 1, 0x80, 0xBF, pending.first, pending.seen + 1⟩ := by
  have whole : n / 64 * 64 + (n % 64 + 0x80 - 0x80) = n := by omega
  rw [feed_inside lower upper, bits, holds, whole]

variable {a b c d : UInt8} {n offset : Nat} {chars : List Char} {rest : Bytes}

theorem decodeFrom_one (small : a.toNat < 0x80) (value : a.toNat = n) :
    decodeFrom offset none chars (a :: rest) =
      decodeFrom (offset + 1) none (Char.ofNat n :: chars) rest := by
  have first : lead a = .single (Char.ofNat a.toNat) := by
    simp only [lead]
    rw [if_pos small]
  simp only [decodeFrom, first, value]

theorem decodeFrom_two (least : 0x80 ≤ n) (greatest : n < 0x800)
    (first : a.toNat = n / 64 + 0xC0) (second : b.toNat = n % 64 + 0x80) :
    decodeFrom offset none chars (a :: b :: rest) =
      decodeFrom (offset + 2) none (Char.ofNat n :: chars) rest := by
  have opened : lead a = .opens ⟨a.toNat - 0xC0, 1, 0x80, 0xBF, a, 1⟩ := by
    simp only [lead]
    rw [if_neg (by omega), if_neg (by omega), if_pos (by omega)]
  have tail : (0x80 : UInt8).toNat = 128 := rfl
  have tailLast : (0xBF : UInt8).toNat = 191 := rfl
  have last := feed_bits ⟨a.toNat - 0xC0, 1, 0x80, 0xBF, a, 1⟩
    (by simp only [tail]; omega) (by simp only [tailLast]; omega) second (by simp only; omega)
  rw [if_pos (by simp)] at last
  simp only [decodeFrom, opened, last]

theorem decodeFrom_three (least : 0x800 ≤ n) (greatest : n < 0x10000)
    (valid : n < 0xD800 ∨ 0xDFFF < n) (first : a.toNat = n / 4096 + 0xE0)
    (second : b.toNat = n / 64 % 64 + 0x80) (third : c.toNat = n % 64 + 0x80) :
    decodeFrom offset none chars (a :: b :: c :: rest) =
      decodeFrom (offset + 3) none (Char.ofNat n :: chars) rest := by
  obtain ⟨low, high, opened, lower, upper⟩ : ∃ low high : UInt8,
      lead a = .opens ⟨a.toNat - 0xE0, 2, low, high, a, 1⟩ ∧ low.toNat ≤ b.toNat ∧
        b.toNat ≤ high.toNat := by
    refine ⟨if a.toNat = 0xE0 then 0xA0 else 0x80, if a.toNat = 0xED then 0x9F else 0xBF, ?_, ?_, ?_⟩
    · simp only [lead]
      rw [if_neg (by omega), if_neg (by omega), if_neg (by omega), if_pos (by omega)]
    · split <;> simp only [UInt8.reduceToNat] <;> omega
    · split <;> simp only [UInt8.reduceToNat] <;> omega
  have tail : (0x80 : UInt8).toNat = 128 := rfl
  have tailLast : (0xBF : UInt8).toNat = 191 := rfl
  have next := feed_bits ⟨a.toNat - 0xE0, 2, low, high, a, 1⟩
    lower upper second (by simp only; omega)
  rw [if_neg (by simp)] at next
  have last := feed_bits ⟨n / 64, 2 - 1, 0x80, 0xBF, a, 1 + 1⟩
    (by simp only [tail]; omega) (by simp only [tailLast]; omega) third rfl
  rw [if_pos (by simp)] at last
  simp only [decodeFrom, opened, next, last]

theorem decodeFrom_four (least : 0x10000 ≤ n) (greatest : n < 0x110000)
    (first : a.toNat = n / 262144 + 0xF0) (second : b.toNat = n / 4096 % 64 + 0x80)
    (third : c.toNat = n / 64 % 64 + 0x80) (fourth : d.toNat = n % 64 + 0x80) :
    decodeFrom offset none chars (a :: b :: c :: d :: rest) =
      decodeFrom (offset + 4) none (Char.ofNat n :: chars) rest := by
  obtain ⟨low, high, opened, lower, upper⟩ : ∃ low high : UInt8,
      lead a = .opens ⟨a.toNat - 0xF0, 3, low, high, a, 1⟩ ∧ low.toNat ≤ b.toNat ∧
        b.toNat ≤ high.toNat := by
    refine ⟨if a.toNat = 0xF0 then 0x90 else 0x80, if a.toNat = 0xF4 then 0x8F else 0xBF, ?_, ?_, ?_⟩
    · simp only [lead]
      rw [if_neg (by omega), if_neg (by omega), if_neg (by omega), if_neg (by omega),
        if_pos (by omega)]
    · split <;> simp only [UInt8.reduceToNat] <;> omega
    · split <;> simp only [UInt8.reduceToNat] <;> omega
  have tail : (0x80 : UInt8).toNat = 128 := rfl
  have tailLast : (0xBF : UInt8).toNat = 191 := rfl
  have next := feed_bits ⟨a.toNat - 0xF0, 3, low, high, a, 1⟩
    lower upper second (by simp only; omega)
  rw [if_neg (by simp)] at next
  have further := feed_bits ⟨n / 4096, 3 - 1, 0x80, 0xBF, a, 1 + 1⟩ (by simp only [tail]; omega) (by simp only [tailLast]; omega) third
    (by simp only; omega)
  rw [if_neg (by simp)] at further
  have last := feed_bits ⟨n / 64, 3 - 1 - 1, 0x80, 0xBF, a, 1 + 1 + 1⟩ (by simp only [tail]; omega) (by simp only [tailLast]; omega) fourth rfl
  rw [if_pos (by simp)] at last
  simp only [decodeFrom, opened, next, further, last]

theorem decodeFrom_utf8EncodeChar (c : Char) :
    decodeFrom offset none chars (String.utf8EncodeChar c ++ rest) =
      decodeFrom (offset + (String.utf8EncodeChar c).length) none (c :: chars) rest := by
  have valid : c.val.toNat.isValidChar := c.valid
  have back : Char.ofNat c.val.toNat = c := Char.ofNat_toNat c
  simp only [String.utf8EncodeChar]
  generalize c.val.toNat = n at valid back ⊢
  simp only [Nat.isValidChar] at valid
  subst back
  have byte {m : Nat} (small : m < 256) : (UInt8.ofNat m).toNat = m :=
    UInt8.toNat_ofNat_of_lt' small
  by_cases one : n ≤ 0x7f
  · rw [if_pos one]
    exact decodeFrom_one (by rw [byte] <;> omega) (byte (by omega))
  · rw [if_neg one]
    by_cases two : n ≤ 0x7ff
    · rw [if_pos two]
      exact decodeFrom_two (by omega) (by omega) (by rw [byte] <;> omega) (byte (by omega))
    · rw [if_neg two]
      by_cases three : n ≤ 0xffff
      · rw [if_pos three]
        exact decodeFrom_three (by omega) (by omega) (by omega) (by rw [byte] <;> omega)
          (byte (by omega)) (byte (by omega))
      · rw [if_neg three]
        exact decodeFrom_four (by omega) (by omega) (by rw [byte] <;> omega)
          (byte (by omega)) (byte (by omega)) (byte (by omega))

theorem decodeFrom_append (text : List Char) :
    decodeFrom offset none chars (encode text ++ rest) =
      decodeFrom (offset + (encode text).length) none (text.reverse ++ chars) rest := by
  induction text generalizing offset chars with
  | nil => rfl
  | cons c text ih =>
      rw [encode_cons, List.append_assoc, decodeFrom_utf8EncodeChar, ih, List.length_append,
        Nat.add_assoc, List.reverse_cons, List.append_assoc, List.singleton_append]

@[simp]
theorem decode_encode (text : List Char) : decode (encode text) = .ok text := by
  have decoded : decodeFrom 0 none [] (encode text ++ []) =
      decodeFrom (0 + (encode text).length) none (text.reverse ++ []) [] := decodeFrom_append text
  simpa [decode, decodeFrom] using decoded

/-- Decoding that starts further on finds the same characters, or the same fault further on. -/
theorem decodeFrom_moved (behind offset : Nat) (front chars : List Char) {pending : Option Pending}
    (held : ∀ p ∈ pending, p.seen ≤ offset) (bytes : Bytes) :
    decodeFrom (behind + offset) pending (chars ++ front) bytes =
      match decodeFrom offset pending chars bytes with
      | .ok text => .ok (front.reverse ++ text)
      | .error fault => .error { fault with offset := behind + fault.offset } := by
  induction bytes generalizing offset pending chars with
  | nil =>
      cases pending with
      | none => simp [decodeFrom]
      | some p =>
          have enough := held p rfl
          simp only [decodeFrom, Except.error.injEq, Malformed.mk.injEq, and_true]
          omega
  | cons byte bytes ih =>
      cases pending with
      | none =>
          simp only [decodeFrom]
          cases announced : lead byte with
          | single c =>
              exact @ih (offset + 1) (c :: chars) none (by simp)
          | opens p =>
              have one : p.seen = 1 := by
                have begun := lead_opens announced
                cases begun <;> rfl
              refine @ih (offset + 1) chars (some p) ?_
              simp [one]
          | invalid => rfl
      | some p =>
          have enough := held p rfl
          simp only [decodeFrom]
          cases fed : p.feed byte with
          | complete c =>
              exact @ih (offset + 1) (c :: chars) none (by simp)
          | more q =>
              have grown : q.seen = p.seen + 1 := by
                obtain ⟨lower, upper⟩ := bounds_of_feed (by rw [fed]; simp)
                rw [feed_inside lower upper] at fed
                split at fed
                · contradiction
                · rw [← Fed.more.inj fed]
              refine @ih (offset + 1) chars (some q) ?_
              simp [grown, enough]
          | refused =>
              simp only [Except.error.injEq, Malformed.mk.injEq, and_true]
              omega

/-- Text that comes behind well-formed text decodes as it does alone. -/
theorem decode_append (text : List Char) (bytes : Bytes) :
    decode (encode text ++ bytes) =
      match decode bytes with
      | .ok more => .ok (text ++ more)
      | .error fault => .error { fault with offset := (encode text).length + fault.offset } := by
  have moved := @decodeFrom_moved (encode text).length 0 text.reverse [] none (by simp) bytes
  rw [decode, decodeFrom_append, Nat.zero_add]
  simpa [decode] using moved

/-- What starts a text in bytes starts it in characters. -/
theorem prefix_of_encode {left right : List Char} (starts : encode left <+: encode right) :
    left <+: right := by
  obtain ⟨behind, whole⟩ := starts
  have decoded := decode_append left behind
  rw [whole, decode_encode] at decoded
  cases rest : decode behind with
  | ok more =>
      rw [rest] at decoded
      exact ⟨more, (Except.ok.inj decoded).symm⟩
  | error fault => simp [rest] at decoded

/-- The bytes of longer forms are all at least 128, so a byte below that is a character by itself. -/
theorem utf8EncodeChar_of_mem {c : Char} {byte : UInt8} (member : byte ∈ String.utf8EncodeChar c)
    (small : byte.toNat < 128) : String.utf8EncodeChar c = [byte] := by
  have wide {m : Nat} (large : 128 ≤ m) (bound : m < 256) : byte ≠ UInt8.ofNat m := by
    rintro rfl
    rw [UInt8.toNat_ofNat_of_lt' bound] at small
    omega
  have valid : c.val.toNat.isValidChar := c.valid
  simp only [String.utf8EncodeChar] at member ⊢
  generalize c.val.toNat = n at valid member
  simp only [Nat.isValidChar] at valid
  split at member
  · rw [List.mem_singleton] at member
    simp only [*, if_true]
  · split at member
    · simp only [List.mem_cons, List.not_mem_nil, or_false] at member
      rcases member with same | same <;> exact absurd same (wide (by omega) (by omega))
    · split at member
      · simp only [List.mem_cons, List.not_mem_nil, or_false] at member
        rcases member with same | same | same <;> exact absurd same (wide (by omega) (by omega))
      · simp only [List.mem_cons, List.not_mem_nil, or_false] at member
        rcases member with same | same | same | same <;> exact absurd same (wide (by omega) (by omega))

/-- Bytes that some text is encoded by. -/
def WellFormed (bytes : Bytes) : Prop := ∃ chars, encode chars = bytes

theorem WellFormed.decode_eq {bytes : Bytes} (formed : WellFormed bytes) :
    ∃ chars, decode bytes = .ok chars := by
  obtain ⟨chars, rfl⟩ := formed
  exact ⟨chars, decode_encode chars⟩

theorem WellFormed.nil : WellFormed [] := ⟨[], rfl⟩

theorem WellFormed.append {left right : Bytes} (first : WellFormed left) (second : WellFormed right) :
    WellFormed (left ++ right) := by
  obtain ⟨cs, rfl⟩ := first
  obtain ⟨ds, rfl⟩ := second
  exact ⟨cs ++ ds, encode_append cs ds⟩

/-- What comes behind a text in a text is a text. -/
theorem WellFormed.of_append {left right : Bytes} (first : WellFormed left)
    (whole : WellFormed (left ++ right)) : WellFormed right := by
  obtain ⟨cs, rfl⟩ := first
  obtain ⟨ds, same⟩ := whole
  obtain ⟨more, rfl⟩ := prefix_of_encode ⟨right, same.symm⟩
  rw [encode_append] at same
  exact ⟨more, List.append_cancel_left same⟩

/-- What comes before a byte below 128 in a text is a text. -/
theorem WellFormed.before {front rest : Bytes} {byte : UInt8}
    (whole : WellFormed (front ++ byte :: rest)) (small : byte.toNat < 128) : WellFormed front := by
  obtain ⟨chars, same⟩ := whole
  induction chars generalizing front with
  | nil => simp at same
  | cons c chars ih =>
      rw [encode_cons] at same
      rcases List.append_eq_append_iff.mp same with ⟨between, split, later⟩ | ⟨between, split, later⟩
      · rw [split]
        exact .append ⟨[c], by simp⟩ (ih later)
      · cases between with
        | nil => exact ⟨[c], by simpa using split⟩
        | cons other between =>
            obtain ⟨rfl, _⟩ := List.cons.inj later
            have single : String.utf8EncodeChar c = [byte] :=
              utf8EncodeChar_of_mem (by simp [split]) small
            rw [single] at split
            cases front with
            | nil => exact .nil
            | cons first front =>
                have length := congrArg List.length split
                simp at length

/-- A byte below 128 stands in one character alone. -/
theorem eq_of_mem_utf8EncodeChar {c d : Char} {byte : UInt8}
    (member : byte ∈ String.utf8EncodeChar c) (small : byte.toNat < 128)
    (single : String.utf8EncodeChar d = [byte]) : c = d := by
  have same : encode [c] = encode [d] := by
    rw [encode_cons, encode_cons, utf8EncodeChar_of_mem member small, single]
  have decoded := decode_encode [c]
  rw [same, decode_encode] at decoded
  cases decoded
  rfl

end TokenSearch.Text.Utf8
