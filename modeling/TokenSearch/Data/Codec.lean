import TokenSearch.Text.Utf8

namespace TokenSearch.Data

/-! Values as bytes. What is written reads back, whatever follows it, so parts can be written one
behind the other. -/

structure Codec (α : Type) where
  write : α → Bytes
  /-- A value at the front of some bytes, and the bytes behind it. -/
  read? : Bytes → Option (α × Bytes)
  read?_write : ∀ value rest, read? (write value ++ rest) = some (value, rest)

namespace Codec

/-- A value that is written as another one. -/
def through {α β : Type} (codec : Codec α) (apart : β → α) (back : α → β)
    (inverse : ∀ value, back (apart value) = value) : Codec β where
  write value := codec.write (apart value)
  read? bytes := (codec.read? bytes).map (fun (value, rest) => (back value, rest))
  read?_write value rest := by simp [codec.read?_write, inverse]

def pair {α β : Type} (first : Codec α) (second : Codec β) : Codec (α × β) where
  write value := first.write value.1 ++ second.write value.2
  read? bytes := do
    let (a, rest) ← first.read? bytes
    let (b, rest) ← second.read? rest
    return ((a, b), rest)
  read?_write value rest := by
    simp [List.append_assoc, first.read?_write, second.read?_write]

/-- The digits of a number to the base 128, the last one first; all but the first digit of the
number are marked by 128. -/
def writeNat (n : Nat) : Bytes :=
  if n < 128 then [UInt8.ofNat n] else UInt8.ofNat (128 + n % 128) :: writeNat (n / 128)

def readNat? : Bytes → Option (Nat × Bytes)
  | [] => none
  | byte :: rest =>
      if byte.toNat < 128 then some (byte.toNat, rest)
      else (readNat? rest).map (fun (n, rest) => (byte.toNat - 128 + 128 * n, rest))

theorem readNat?_writeNat (n : Nat) (rest : Bytes) :
    readNat? (writeNat n ++ rest) = some (n, rest) := by
  induction n using Nat.strongRecOn with
  | ind n earlier =>
      rw [writeNat]
      by_cases small : n < 128
      · have fits : n % 256 = n := by omega
        simp [readNat?, small, fits]
      · have fits : (128 + n % 128) % 256 = 128 + n % 128 := by omega
        have marked : ¬ 128 + n % 128 < 128 := by omega
        have less : n / 128 < n := by omega
        simp only [small, if_false, List.cons_append, readNat?, UInt8.toNat_ofNat', Nat.reducePow,
          fits, marked, earlier _ less, Option.map_some, Option.some.injEq, Prod.mk.injEq, and_true]
        omega

def nat : Codec Nat := ⟨writeNat, readNat?, readNat?_writeNat⟩

def byte : Codec UInt8 where
  write value := [value]
  read? bytes := match bytes with
    | [] => none
    | value :: rest => some (value, rest)
  read?_write _ _ := rfl

/-- Reads a known count of values. -/
def readMany? {α : Type} (codec : Codec α) : (count : Nat) → Bytes → Option (List α × Bytes)
  | 0, bytes => some ([], bytes)
  | count + 1, bytes => do
      let (first, rest) ← codec.read? bytes
      let (others, rest) ← readMany? codec count rest
      return (first :: others, rest)

theorem readMany?_flatMap {α : Type} (codec : Codec α) (values : List α) (rest : Bytes) :
    readMany? codec values.length (values.flatMap codec.write ++ rest) = some (values, rest) := by
  induction values with
  | nil => rfl
  | cons value values ih => simp [readMany?, List.append_assoc, codec.read?_write, ih]

/-- A list is written behind its length. -/
def list {α : Type} (codec : Codec α) : Codec (List α) where
  write values := writeNat values.length ++ values.flatMap codec.write
  read? bytes := do
    let (count, rest) ← readNat? bytes
    readMany? codec count rest
  read?_write values rest := by
    simp [List.append_assoc, readNat?_writeNat, readMany?_flatMap]

/-- An optional value is a list of at most one. -/
def option {α : Type} (codec : Codec α) : Codec (Option α) :=
  (list codec).through Option.toList List.head? (by intro value; cases value <;> rfl)

def bytes : Codec Bytes := list byte

def char : Codec Char := nat.through Char.toNat Char.ofNat Char.ofNat_toNat

def text : Codec String :=
  (list char).through String.toList String.ofList (by intro value; exact String.ofList_toList)

/-- Whether an integer is negative, and its size. -/
def integer : Codec Int :=
  (pair nat nat).through (fun n => (if n < 0 then 1 else 0, n.natAbs))
    (fun (negative, size) => if negative = 1 then -(size : Int) else size)
    (by
      intro value
      by_cases negative : value < 0
      · simp only [negative, if_true]; omega
      · simp only [negative, if_false]; simp; omega)

end Codec

end TokenSearch.Data
