import TokenSearch.Decimal.Binary
import TokenSearch.Text.Integer

namespace TokenSearch.Text.Integer

/-! A count in decimal digits reads back as the count. -/

def Plain (cs : List Char) : Prop := ∀ c ∈ cs, c.isDigit = true

theorem digit?_of_isDigit {c : Char} (plain : c.isDigit = true) :
    digit? c = some (c.toNat - '0'.toNat) := by
  have range : '0' ≤ c ∧ c ≤ '9' := by
    simpa [Char.isDigit, Char.le_def] using plain
  rw [digit?, if_pos range]

theorem ne_underscore_of_isDigit {c : Char} (plain : c.isDigit = true) : c ≠ '_' := by
  rintro rfl
  contradiction

theorem run?_of_plain {cs : List Char} (plain : Plain cs) (value count : Nat) :
    run? value count cs = some ⟨Nat.ofDigitChars 10 cs value, count + cs.length, []⟩ := by
  induction cs generalizing value count with
  | nil => simp [run?]
  | cons c rest ih =>
      have digit : c.isDigit = true := plain c List.mem_cons_self
      have later : Plain rest := fun d member => plain d (List.mem_cons_of_mem _ member)
      have other := ne_underscore_of_isDigit digit
      unfold run?
      split
      · contradiction
      · rename_i same
        cases same
        contradiction
      · rename_i same
        cases same
        contradiction
      · rename_i same
        cases same
        rw [digit?_of_isDigit digit]
        simp only [ih later]
        rw [Nat.ofDigitChars_cons, Nat.mul_comm value 10, List.length_cons]
        congr 2
        omega

theorem unsigned_of_plain {c : Char} {rest : List Char} (plain : Plain (c :: rest))
    (short : (c :: rest).length ≤ digitLimit) :
    unsigned (c :: rest) = .ok (Nat.ofDigitChars 10 (c :: rest) 0) := by
  have digit : c.isDigit = true := plain c List.mem_cons_self
  have later : Plain rest := fun d member => plain d (List.mem_cons_of_mem _ member)
  have limit : ¬ digitLimit < 1 + rest.length := by
    rw [List.length_cons] at short
    omega
  rw [unsigned, digit?_of_isDigit digit, Option.bind_some, run?_of_plain later]
  simp [Run.number, limit, Nat.ofDigitChars_cons]

theorem signed_of_plain {c : Char} {rest : List Char} (plain : Plain (c :: rest)) :
    signed (c :: rest) = (unsigned (c :: rest)).map Int.ofNat := by
  have digit : c.isDigit = true := plain c List.mem_cons_self
  unfold signed
  split
  · rename_i same
    cases same
    contradiction
  · rename_i same
    cases same
    contradiction
  · rfl

theorem toNat_of_isDigit {c : Char} (plain : c.isDigit = true) : 48 ≤ c.toNat ∧ c.toNat ≤ 57 := by
  simp only [Char.isDigit, Bool.and_eq_true, decide_eq_true_eq] at plain
  have lower := UInt32.le_iff_toNat_le.mp plain.1
  have upper := UInt32.le_iff_toNat_le.mp plain.2
  exact ⟨by simpa using lower, by simpa using upper⟩

theorem isMargin_of_isDigit {c : Char} (plain : c.isDigit = true) : isMargin c = false := by
  have bounds := toNat_of_isDigit plain
  have small : c.toNat < 0x80 := by omega
  have above : ¬ c.toNat ≤ 0xD := by omega
  have notSpace : c ≠ ' ' := by
    rintro rfl
    contradiction
  rw [isMargin, if_pos small]
  simp [isAsciiBlank, notSpace, above]

theorem trimWith_of_plain {cs : List Char} (plain : Plain cs) : trimWith isMargin cs = cs := by
  have keep {ds : List Char} (digits : Plain ds) : ds.dropWhile isMargin = ds := by
    cases ds with
    | nil => rfl
    | cons d rest =>
        rw [List.dropWhile_cons_of_neg]
        simp [isMargin_of_isDigit (digits d List.mem_cons_self)]
  have backwards : Plain cs.reverse := fun c member => plain c (List.mem_reverse.mp member)
  rw [trimWith, keep plain, keep backwards, List.reverse_reverse]

/-- The decimal form of a count with at most as many digits as can be read. -/
theorem read_toString {n : Nat} (short : n < Decimal.tenTo digitLimit) :
    read (toString n) = .ok (n : Int) := by
  have plain : Plain (Nat.toDigits 10 n) := fun c member =>
    Nat.isDigit_of_mem_toDigits (by decide) (by decide) member
  have power (k : Nat) : Decimal.tenTo k = 10 ^ k := rfl
  rw [power] at short
  have length : (Nat.toDigits 10 n).length ≤ digitLimit :=
    (Nat.length_toDigits_le_iff (by decide) (by decide)).mpr short
  rw [read, Nat.toString_eq_ofList_toDigits, String.toList_ofList, trimWith_of_plain plain]
  have value := Nat.ofDigitChars_ten_toDigits (n := n)
  cases digits : Nat.toDigits 10 n with
  | nil => exact absurd digits Nat.toDigits_ne_nil
  | cons c rest =>
      rw [digits] at plain length value
      rw [signed_of_plain plain, unsigned_of_plain plain length, value]
      rfl

end TokenSearch.Text.Integer
