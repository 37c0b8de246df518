import Mathlib.Data.List.TakeWhile
import TokenSearch.Lexer.Tokenize
import TokenSearch.Proofs.Text.Utf8

namespace TokenSearch

open Text

/-! The place behind some bytes, counted from the bytes themselves, and the place that the lexer
carries along from lexeme to lexeme. They are the same. -/

def lineFeed : UInt8 := 0x0A

/-- Where the line that `before` ends in starts: behind its last line feed. -/
def lineStart (before : Bytes) : Nat :=
  before.length - (before.reverse.takeWhile (· ≠ lineFeed)).length

/-- The place behind the bytes `before`. -/
def Position.behind (before : Bytes) : Position where
  offset := before.length
  line := 1 + before.count lineFeed
  column := before.length - lineStart before + 1

theorem lineStart_le (before : Bytes) : lineStart before ≤ before.length :=
  Nat.sub_le _ _

theorem lineStart_append_lineFeed (before : Bytes) :
    lineStart (before ++ [lineFeed]) = before.length + 1 := by
  simp [lineStart]

theorem lineStart_append_plain {before bytes : Bytes} (plain : lineFeed ∉ bytes) :
    lineStart (before ++ bytes) = lineStart before := by
  have whole : bytes.reverse.takeWhile (· ≠ lineFeed) = bytes.reverse := by
    rw [List.takeWhile_eq_self_iff]
    intro byte member
    have other : byte ≠ lineFeed := by
      rintro rfl
      exact plain (List.mem_reverse.mp member)
    simpa using other
  have front := (List.takeWhile_prefix (l := before.reverse) (· ≠ lineFeed)).length_le
  simp only [lineStart, List.reverse_append, List.takeWhile_append, whole, List.length_reverse,
    if_true, List.length_append] at front ⊢
  omega

namespace Position

theorem behind_nil : behind [] = start := rfl

theorem behind_offset (before : Bytes) : (behind before).offset = before.length := rfl

theorem behind_append_lineFeed (before : Bytes) :
    behind (before ++ [lineFeed]) =
      ⟨(behind before).offset + 1, (behind before).line + 1, 1⟩ := by
  simp only [behind, lineStart_append_lineFeed, List.length_append, List.length_singleton,
    List.count_append, List.count_singleton_self, Position.mk.injEq]
  omega

theorem behind_append_plain {before bytes : Bytes} (plain : lineFeed ∉ bytes) :
    behind (before ++ bytes) = ⟨(behind before).offset + bytes.length, (behind before).line,
      (behind before).column + bytes.length⟩ := by
  have bound := lineStart_le before
  simp only [behind, lineStart_append_plain plain, List.length_append, List.count_append,
    List.count_eq_zero.mpr plain, Position.mk.injEq]
  omega

theorem eq_lineFeed_of_mem {c : Char} (member : lineFeed ∈ String.utf8EncodeChar c) :
    c = '\n' :=
  Utf8.eq_of_mem_utf8EncodeChar member (by decide) rfl

theorem behind_step (before : Bytes) (c : Char) :
    (behind before).step c = behind (before ++ String.utf8EncodeChar c) := by
  by_cases isFeed : c = '\n'
  · subst isFeed
    exact (behind_append_lineFeed before).symm
  · have plain : lineFeed ∉ String.utf8EncodeChar c := fun member =>
      isFeed (eq_lineFeed_of_mem member)
    simp [step, isFeed, behind_append_plain plain]

/-- Going over characters one by one counts the same as looking at all bytes at once. -/
theorem behind_advance (before : Bytes) (cs : List Char) :
    (behind before).advance cs = behind (before ++ Utf8.encode cs) := by
  induction cs generalizing before with
  | nil => simp
  | cons c rest ih =>
      have first : (behind before).advance (c :: rest) = ((behind before).step c).advance rest := rfl
      rw [first, behind_step, ih, Utf8.encode_cons, List.append_assoc]

theorem start_advance (cs : List Char) : start.advance cs = behind (Utf8.encode cs) := by
  simpa [behind_nil] using behind_advance [] cs

end Position

namespace Lexer

/-- Where a scan fails, it has gone over some of the text, and not beyond it. -/
theorem offset_of_scan {place : Position} {seen : List Token} {cs : List Char} {before : Bytes}
    (here : place = .behind before) {error : LexError}
    (failed : (scan place seen cs).failure = some error) :
    ∃ read : Nat, error.offset = read ∧ read ≤ (before ++ Utf8.encode cs).length := by
  fun_induction scan place seen cs generalizing before with
  | case1 place seen => simp at failed
  | case2 place seen c rest kind n found piece after text skipped =>
      rename_i ih
      have whole : c :: rest = piece ++ rest.drop n := by simp [piece]
      have there : after = .behind (before ++ Utf8.encode piece) := by
        simp only [after, here, Position.behind_advance]
      rw [whole, Utf8.encode_append, ← List.append_assoc]
      exact ih there failed
  | case3 place seen c rest kind n found piece after text token kept =>
      rename_i ih
      have whole : c :: rest = piece ++ rest.drop n := by simp [piece]
      have there : after = .behind (before ++ Utf8.encode piece) := by
        simp only [after, here, Position.behind_advance]
      rw [whole, Utf8.encode_append, ← List.append_assoc]
      exact ih there failed
  | case4 =>
      cases failed
      refine ⟨before.length, by rw [errorAt, here, Position.behind_offset], ?_⟩
      rw [List.length_append]
      exact Nat.le_add_right _ _

theorem offset_placeAfter (bytes : Bytes) : (placeAfter bytes).offset = bytes.length := by
  have count (place : Position) : (bytes.foldl (fun p b =>
      if b = 0x0A then ⟨p.offset + 1, p.line + 1, 1⟩ else ⟨p.offset + 1, p.line, p.column + 1⟩)
        place).offset = place.offset + bytes.length := by
    induction bytes generalizing place with
    | nil => simp
    | cons byte rest ih =>
        rw [List.foldl_cons, ih, List.length_cons]
        split <;> simp only <;> omega
  rw [placeAfter, count]
  simp [Position.start]

/-- A text is refused at a place inside it or at its end. -/
theorem offset_of_tokenize {source : Bytes} {error : LexError}
    (refused : tokenize source = .error error) :
    ∃ read : Nat, error.offset = read ∧ read ≤ source.length := by
  have failed : (lex source).failure = some error := by
    unfold tokenize Lexing.complete at refused
    split at refused
    · cases refused
    · cases refused
      assumption
  unfold lex at failed
  cases decoded : Utf8.decode source with
  | error fault =>
      rw [decoded] at failed
      cases failed
      refine ⟨(source.take fault.offset).length, offset_placeAfter _, ?_⟩
      rw [List.length_take]
      exact Nat.min_le_right _ _
  | ok cs =>
      rw [decoded] at failed
      rw [← Utf8.encode_of_decode decoded]
      exact @offset_of_scan _ _ _ [] rfl _ failed

end Lexer

end TokenSearch
