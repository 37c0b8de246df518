import Mathlib.Algebra.Ring.Nat
import Mathlib.Data.List.Nodup
import Mathlib.Data.List.Perm.Subperm
import TokenSearch.Index.Validate
import TokenSearch.Proofs.Data.Result

namespace TokenSearch

/-! What the check of an index accepts. Each posting list ascends and leads to tokens with its identity,
and the lists hold as many postings as there are tokens. No token has two identities, so the lists
have no posting in common, and then they lead to all tokens. -/

open Data

namespace Posting

theorem before_trans {a b c : Posting} (first : a.before b) (second : b.before c) :
    a.before c := by
  simp only [before, Bool.or_eq_true, Bool.and_eq_true, decide_eq_true_eq] at first second ⊢
  omega

theorem nodup_of_ascending {postings : List Posting}
    (ascending : postings.Pairwise (fun a b => a.before b)) : postings.Nodup := by
  refine ascending.imp ?_
  rintro posting _ less rfl
  simp [before] at less

/-- All places in streams of the given lengths. -/
def places (counts : List Nat) : List Posting :=
  counts.zipIdx.flatMap (fun (count, file) =>
    (List.range count).map (fun place => ⟨(file : Nat), (place : Nat)⟩))

theorem mem_places {counts : List Nat} {posting : Posting} :
    posting ∈ places counts ↔ ∃ (file place count : Nat), counts[file]? = some count ∧
      place < count ∧ posting = ⟨file, place⟩ := by
  simp only [places, List.mem_flatMap, List.mem_map, List.mem_range, Prod.exists,
    List.mem_zipIdx_iff_getElem?]
  constructor
  · rintro ⟨count, file, held, place, inside, rfl⟩
    exact ⟨file, place, count, held, inside, rfl⟩
  · rintro ⟨file, place, count, held, inside, rfl⟩
    exact ⟨count, file, held, place, inside, rfl⟩

theorem length_places (counts : List Nat) : (places counts).length = counts.sum := by
  have same : counts.zipIdx.map (fun pair => pair.1) = counts := List.zipIdx_map_fst 0 counts
  rw [places, List.length_flatMap]
  simp only [List.length_map, List.length_range]
  rw [same]

theorem nodup_places (counts : List Nat) : (places counts).Nodup := by
  rw [places, List.nodup_flatMap]
  constructor
  · intro pair _
    refine List.nodup_range.map (fun first second same => ?_)
    exact Int.natCast_inj.mp (congrArg Posting.token same)
  · have apart : (counts.zipIdx.map Prod.snd).Nodup := by
      rw [List.zipIdx_map_snd]
      exact List.nodup_range'
    refine (List.pairwise_map.mp apart).imp (fun differ posting early late => differ ?_)
    obtain ⟨_, _, rfl⟩ := List.mem_map.mp early
    obtain ⟨_, _, same⟩ := List.mem_map.mp late
    exact Int.natCast_inj.mp (congrArg Posting.file same).symm

end Posting

namespace Validate

variable {reader : Reader}

/-- A posting leads to a token with the given identity. -/
def Leads (reader : Reader) (identity : SeenIdentity) (posting : Posting) : Prop :=
  0 ≤ posting.file ∧ posting.file < reader.entries.length ∧ 0 ≤ posting.token ∧
    ∃ token later,
      reader.window posting.file posting.token (posting.token + 1) = .ok (token :: later) ∧
      token.identity = identity

theorem Leads.unique {first second : SeenIdentity} {posting : Posting}
    (one : Leads reader first posting) (other : Leads reader second posting) : first = second := by
  obtain ⟨_, _, _, _, _, window, rfl⟩ := one
  obtain ⟨_, _, _, _, _, again, rfl⟩ := other
  cases window.symm.trans again
  rfl

theorem checkPosting_eq_nil {identity : SeenIdentity} {posting : Posting} :
    checkPosting reader identity posting = .ok [] ↔ Leads reader identity posting := by
  unfold checkPosting Leads
  by_cases known : 0 ≤ posting.file ∧ posting.file < reader.entries.length
  · have listed : reader.entries[posting.file.toNat]? = some reader.entries[posting.file.toNat] :=
      List.getElem?_eq_getElem (by omega)
    rw [if_pos known]
    simp only [listed, known, true_and]
    cases window : reader.window posting.file posting.token (posting.token + 1) with
    | error fault => simp [bind, Except.bind]
    | ok tokens =>
        rw [ok_bind]
        cases tokens with
        | nil => simp [pure_eq_ok]
        | cons token later =>
            by_cases negative : posting.token < 0
            · simp [negative, Int.not_le.mpr negative, pure_eq_ok]
            · by_cases own : token.identity = identity <;>
                simp [negative, Int.not_lt.mp negative, own, pure_eq_ok]
  · rw [if_neg known]
    simp only [Except.ok.injEq, List.cons_ne_nil, false_iff]
    exact fun leads => known ⟨leads.1, leads.2.1⟩

/-- A check from the middle of a list on. The posting in front is behind none of those that come. -/
theorem checkList_eq_nil {identity : SeenIdentity} {previous : Option Posting}
    {postings : List Posting} :
    checkList reader identity previous postings = .ok [] ↔
      (previous.toList ++ postings).Pairwise (fun a b => a.before b) ∧
        ∀ posting ∈ postings, Leads reader identity posting := by
  induction postings generalizing previous with
  | nil => cases previous <;> simp [checkList]
  | cons posting rest ih =>
      have step : (previous.toList ++ posting :: rest).Pairwise (fun a b => a.before b) ↔
          (previous.any (fun earlier => !earlier.before posting) = false) ∧
            (posting :: rest).Pairwise (fun a b => a.before b) := by
        cases previous with
        | none => simp
        | some earlier =>
            simp only [Option.toList_some, List.singleton_append, List.pairwise_cons (a := earlier),
              Option.any_some, Bool.not_eq_false']
            refine and_congr_left (fun ascending => ?_)
            refine ⟨fun each => each posting List.mem_cons_self, fun first later member => ?_⟩
            rcases List.mem_cons.mp member with rfl | after
            · exact first
            · exact Posting.before_trans first ((List.pairwise_cons.mp ascending).1 later after)
      rw [step, checkList]
      split
      · rename_i behind
        simp [behind]
      · rename_i ahead
        have told : ((do
            let here ← checkPosting reader identity posting
            let later ← checkList reader identity (some posting) rest
            return here ++ later : Except Fault (List Disagreement)) = .ok []) ↔
            checkPosting reader identity posting = .ok [] ∧
              checkList reader identity (some posting) rest = .ok [] := by
          simp only [bind_eq_ok, pure_eq_ok, Except.ok.injEq, List.append_eq_nil_iff]
          constructor
          · rintro ⟨_, here, _, later, rfl, rfl⟩
            exact ⟨here, later⟩
          · exact fun ⟨here, later⟩ => ⟨_, here, _, later, rfl, rfl⟩
        rw [told, checkPosting_eq_nil, ih]
        simp only [Option.toList_some, List.singleton_append, List.mem_cons, forall_eq_or_imp,
          Bool.not_eq_true] at ahead ⊢
        simp only [ahead, true_and]
        tauto

/-- The posting lists of a reader ascend and lead to tokens with their identities. -/
structure Passes (reader : Reader) (lists : List (SeenIdentity × List Posting)) : Prop where
  told : ∀ list ∈ lists, reader.postingsOf list.1 = .ok list.2
  ascending : ∀ list ∈ lists, list.2.Pairwise (fun a b => a.before b)
  leads : ∀ list ∈ lists, ∀ posting ∈ list.2, Leads reader list.1 posting

def held (lists : List (SeenIdentity × List Posting)) : Nat :=
  (lists.map (fun list => list.2.length)).sum

theorem held_eq (lists : List (SeenIdentity × List Posting)) :
    held lists = (lists.flatMap Prod.snd).length := by
  rw [List.length_flatMap, held]

theorem passes_cons {list : SeenIdentity × List Posting}
    {rest : List (SeenIdentity × List Posting)} :
    Passes reader (list :: rest) ↔ reader.postingsOf list.1 = .ok list.2 ∧
      checkList reader list.1 none list.2 = .ok [] ∧ Passes reader rest := by
  rw [checkList_eq_nil]
  constructor
  · rintro ⟨told, ascending, leads⟩
    rw [List.forall_mem_cons] at told ascending leads
    exact ⟨told.1, ⟨ascending.1, leads.1⟩, told.2, ascending.2, leads.2⟩
  · rintro ⟨told, ⟨ascending, leads⟩, later⟩
    exact ⟨List.forall_mem_cons.mpr ⟨told, later.told⟩,
      List.forall_mem_cons.mpr ⟨ascending, later.ascending⟩,
      List.forall_mem_cons.mpr ⟨leads, later.leads⟩⟩

theorem checkLists_eq_nil {members : List (Except Fault SeenIdentity)} {total : Nat} :
    checkLists reader members = .ok ([], total) ↔
      ∃ lists, members = lists.map (fun list => .ok list.1) ∧ Passes reader lists ∧
        total = held lists := by
  induction members generalizing total with
  | nil =>
      constructor
      · rintro ⟨⟩
        exact ⟨[], rfl, ⟨by simp, by simp, by simp⟩, rfl⟩
      · rintro ⟨lists, none_, _, rfl⟩
        rw [List.map_eq_nil_iff.mp none_.symm]
        rfl
  | cons member rest ih =>
      rw [checkLists]
      constructor
      · intro checked
        obtain ⟨identity, known, checked⟩ := bind_eq_ok.mp checked
        obtain ⟨postings, told, checked⟩ := bind_eq_ok.mp checked
        obtain ⟨here, passed, checked⟩ := bind_eq_ok.mp checked
        obtain ⟨⟨later, count⟩, others, checked⟩ := bind_eq_ok.mp checked
        simp only [pure_eq_ok, Except.ok.injEq, Prod.mk.injEq, List.append_eq_nil_iff] at checked
        obtain ⟨⟨rfl, rfl⟩, rfl⟩ := checked
        obtain ⟨lists, rfl, passes, rfl⟩ := ih.mp others
        subst known
        exact ⟨(identity, postings) :: lists, rfl, passes_cons.mpr ⟨told, passed, passes⟩, rfl⟩
      · rintro ⟨lists, same, passes, rfl⟩
        obtain ⟨list, lists, rfl, rfl, rfl⟩ := List.map_eq_cons_iff.mp same.symm
        obtain ⟨told, passed, later⟩ := passes_cons.mp passes
        rw [ok_bind, told, ok_bind, passed, ok_bind, ih.mpr ⟨lists, rfl, later, rfl⟩]
        rfl

namespace Passes

variable {lists : List (SeenIdentity × List Posting)} {counts : List Nat}

/-- Lists of different identities have no posting in common. -/
theorem nodup (passes : Passes reader lists) (distinct : (lists.map Prod.fst).Nodup) :
    (lists.flatMap Prod.snd).Nodup := by
  rw [List.nodup_flatMap]
  refine ⟨fun list member => Posting.nodup_of_ascending (passes.ascending list member), ?_⟩
  refine (List.pairwise_map.mp distinct).imp_of_mem ?_
  intro first second inFirst inSecond differ posting early late
  exact differ ((passes.leads first inFirst posting early).unique
    (passes.leads second inSecond posting late))

/-- Lists with as many postings as there are places hold all of them, and only such lists do. -/
theorem held_eq_iff (passes : Passes reader lists) (distinct : (lists.map Prod.fst).Nodup)
    (inside : ∀ list ∈ lists, ∀ posting ∈ list.2, posting ∈ Posting.places counts) :
    held lists = counts.sum ↔
      ∀ posting ∈ Posting.places counts, ∃ list ∈ lists, posting ∈ list.2 := by
  have apart := passes.nodup distinct
  have part : lists.flatMap Prod.snd ⊆ Posting.places counts := by
    intro posting member
    obtain ⟨list, known, held⟩ := List.mem_flatMap.mp member
    exact inside list known posting held
  rw [held_eq, ← Posting.length_places]
  constructor
  · intro same posting member
    have whole := (List.subperm_of_subset apart part).perm_of_length_le (by omega)
    exact List.mem_flatMap.mp (whole.mem_iff.mpr member)
  · intro covers
    have others : Posting.places counts ⊆ lists.flatMap Prod.snd :=
      fun posting member => List.mem_flatMap.mpr (covers posting member)
    exact Nat.le_antisymm (List.subperm_of_subset apart part).length_le
      (List.subperm_of_subset (Posting.nodup_places counts) others).length_le

end Passes

section Total

variable (window : ∀ {file : Int}, 0 ≤ file → file < reader.entries.length → ∀ start stop,
  ∃ tokens, reader.window file start stop = .ok tokens)

include window

theorem checkPosting_total (identity : SeenIdentity) (posting : Posting) :
    ∃ found, checkPosting reader identity posting = .ok found := by
  unfold checkPosting
  split
  · rename_i known
    split
    · exact ⟨_, rfl⟩
    · obtain ⟨tokens, told⟩ := window known.1 known.2 posting.token (posting.token + 1)
      rw [told, ok_bind]
      cases tokens with
      | nil => exact ⟨_, rfl⟩
      | cons token later =>
          by_cases negative : posting.token < 0
          · simp only [negative, if_true]
            exact ⟨_, rfl⟩
          · by_cases own : token.identity = identity <;> simp only [negative, own, if_true, if_false]
            · exact ⟨_, rfl⟩
            · exact ⟨_, rfl⟩
  · exact ⟨_, rfl⟩

theorem checkList_total (identity : SeenIdentity) (previous : Option Posting)
    (postings : List Posting) :
    ∃ found, checkList reader identity previous postings = .ok found := by
  induction postings generalizing previous with
  | nil => exact ⟨_, rfl⟩
  | cons posting rest ih =>
      rw [checkList]
      split
      · exact ⟨_, rfl⟩
      · obtain ⟨here, first⟩ := checkPosting_total window identity posting
        obtain ⟨later, second⟩ := ih (some posting)
        rw [first, ok_bind, second]
        exact ⟨here ++ later, rfl⟩

/-- A check goes to its end if the posting lists and the tokens of all files can be read. -/
theorem checkLists_total {listed : List SeenIdentity}
    (told : ∀ identity ∈ listed, ∃ postings, reader.postingsOf identity = .ok postings) :
    ∃ result, checkLists reader (listed.map .ok) = .ok result := by
  induction listed with
  | nil => exact ⟨_, rfl⟩
  | cons identity rest ih =>
      obtain ⟨⟨postings, known⟩, others⟩ := List.forall_mem_cons.mp told
      obtain ⟨here, first⟩ := checkList_total window identity none postings
      obtain ⟨⟨later, total⟩, second⟩ := ih others
      rw [List.map_cons, checkLists, ok_bind, known, ok_bind, first, ok_bind, second]
      exact ⟨(here ++ later, postings.length + total), rfl⟩

end Total

end Validate

/-- A check that tells of nothing went through posting lists that pass, and counted as many postings
as there are tokens. -/
theorem Reader.validate_eq_nil {reader : Reader} :
    reader.validate = .ok [] ↔ ∃ tokens lists, totalTokens reader.entries = .ok tokens ∧
      reader.identities = .ok (lists.map (fun list => .ok list.1)) ∧
      Validate.Passes reader lists ∧ tokens.agrees (.integer (Validate.held lists)) = true := by
  rw [validate]
  constructor
  · intro checked
    obtain ⟨tokens, counted, checked⟩ := bind_eq_ok.mp checked
    obtain ⟨listed, known, checked⟩ := bind_eq_ok.mp checked
    obtain ⟨⟨found, postings⟩, passed, checked⟩ := bind_eq_ok.mp checked
    simp only [pure_eq_ok, Except.ok.injEq] at checked
    split at checked
    · rename_i same
      cases checked
      obtain ⟨lists, rfl, passes, rfl⟩ := Validate.checkLists_eq_nil.mp passed
      exact ⟨tokens, lists, counted, known, passes, same⟩
    · simp at checked
  · rintro ⟨tokens, lists, counted, known, passes, same⟩
    rw [counted, ok_bind, known, ok_bind, Validate.checkLists_eq_nil.mpr ⟨lists, rfl, passes, rfl⟩,
      ok_bind]
    simp only [same, if_true]
    rfl

end TokenSearch
