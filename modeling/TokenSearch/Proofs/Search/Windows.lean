import Mathlib.Data.List.Chain
import TokenSearch.Search.Window

namespace TokenSearch.Search

/-! The fetch windows of some starts hold these starts in their order, each in one window. A window
fetches the tokens that its starts need and no others, and no token is fetched by two windows. -/

/-- A window reaches from its first start to one width behind its last start. -/
structure Window.Spans (width : Int) (window : Window) : Prop where
  first : window.starts.head? = some window.first
  stop : (window.starts.getLast?).map (· + width) = some window.stop

/-- The tokens that a window fetches, by their places in the file. -/
def Window.Fetches (window : Window) (place : Int) : Prop :=
  window.first ≤ place ∧ place < window.stop

theorem windowsFrom_starts (width first : Int) (group : List Int) (last : Int) (rest : List Int) :
    (windowsFrom width first group last rest).flatMap Window.starts =
      (last :: group).reverse ++ rest := by
  fun_induction windowsFrom width first group last rest with
  | case1 => simp
  | case2 first group last start rest apart ih => simp [ih]
  | case3 first group last start rest close ih => simp [ih]

/-- The starts of the windows, one window after the other, are the starts that were given. -/
theorem windows_starts (width : Int) (starts : List Int) :
    (windows width starts).flatMap Window.starts = starts := by
  cases starts with
  | nil => rfl
  | cons start rest => simp [windows, windowsFrom_starts]

theorem windowsFrom_spans {width first : Int} {group : List Int} {last : Int} {rest : List Int}
    (opened : (last :: group).reverse.head? = some first) :
    ∀ window ∈ windowsFrom width first group last rest, window.Spans width := by
  have closed {first : Int} {group : List Int} {last : Int}
      (opened : (last :: group).reverse.head? = some first) :
      (⟨first, last + width, (last :: group).reverse⟩ : Window).Spans width :=
    ⟨opened, by simp⟩
  fun_induction windowsFrom width first group last rest with
  | case1 first group last =>
      intro window member
      rw [List.mem_singleton.mp member]
      exact closed opened
  | case2 first group last start rest apart ih =>
      intro window member
      rcases List.mem_cons.mp member with rfl | later
      · exact closed opened
      · exact ih rfl window later
  | case3 first group last start rest close ih =>
      apply ih
      rw [List.reverse_cons, List.head?_append, opened, Option.some_or]

theorem windows_spans {width : Int} {starts : List Int} :
    ∀ window ∈ windows width starts, window.Spans width := by
  cases starts with
  | nil => simp [windows]
  | cons start rest => exact windowsFrom_spans rfl

theorem starts_sublist {width : Int} {starts : List Int} {window : Window}
    (member : window ∈ windows width starts) : window.starts.Sublist starts := by
  have inside := List.sublist_flatten_of_mem (List.mem_map_of_mem (f := Window.starts) member)
  rwa [← List.flatMap_def, windows_starts] at inside

namespace Window.Spans

variable {width : Int} {window : Window}

theorem first_mem (spans : window.Spans width) : window.first ∈ window.starts :=
  List.mem_of_head? spans.first

theorem exists_stop (spans : window.Spans width) :
    ∃ start ∈ window.starts, window.stop = start + width := by
  obtain ⟨last, found, stop⟩ := Option.map_eq_some_iff.mp spans.stop
  exact ⟨last, List.mem_of_getLast? found, stop.symm⟩

theorem first_le (spans : window.Spans width) (ordered : window.starts.Pairwise (· ≤ ·)) :
    ∀ start ∈ window.starts, window.first ≤ start := by
  intro start member
  obtain ⟨rest, split⟩ := List.head?_eq_some_iff.mp spans.first
  rw [split] at ordered member
  rcases List.mem_cons.mp member with rfl | later
  · exact Int.le_refl _
  · exact (List.pairwise_cons.mp ordered).1 start later

theorem le_stop (spans : window.Spans width) (ordered : window.starts.Pairwise (· ≤ ·)) :
    ∀ start ∈ window.starts, start + width ≤ window.stop := by
  intro start member
  obtain ⟨last, found, stop⟩ := Option.map_eq_some_iff.mp spans.stop
  obtain ⟨front, split⟩ := List.getLast?_eq_some_iff.mp found
  rw [split] at ordered member
  rcases List.mem_append.mp member with earlier | here
  · have bound := (List.pairwise_append.mp ordered).2.2 start earlier last (by simp)
    omega
  · rw [List.mem_singleton.mp here]
    omega

theorem ne_nil (spans : window.Spans width) : window.starts ≠ [] :=
  List.ne_nil_of_mem spans.first_mem

end Window.Spans

variable {width first : Int} {group : List Int} {last : Int} {rest starts : List Int}

/-- The starts of a group, of which each is at most one width behind the one before it. -/
theorem windowsFrom_linked
    (opened : (last :: group).reverse.IsChain (fun earlier later => later ≤ earlier + width)) :
    ∀ window ∈ windowsFrom width first group last rest,
      window.starts.IsChain (fun earlier later => later ≤ earlier + width) := by
  fun_induction windowsFrom width first group last rest with
  | case1 first group last =>
      intro window member
      rw [List.mem_singleton.mp member]
      exact opened
  | case2 first group last start rest apart ih =>
      intro window member
      rcases List.mem_cons.mp member with rfl | later
      · exact opened
      · exact ih (List.isChain_singleton start) window later
  | case3 first group last start rest close ih =>
      apply ih
      rw [List.isChain_reverse] at opened ⊢
      exact List.isChain_cons_cons.mpr ⟨Int.not_lt.mp close, opened⟩

theorem windows_linked :
    ∀ window ∈ windows width starts,
      window.starts.IsChain (fun earlier later => later ≤ earlier + width) := by
  cases starts with
  | nil => simp [windows]
  | cons start rest => exact windowsFrom_linked (List.isChain_singleton start)

/-- Where each start is at most one width behind the one before it, there is no gap between the
ranges that they need. -/
theorem exists_start_of_linked {starts : List Int} {first stop place : Int}
    (linked : starts.IsChain (fun earlier later => later ≤ earlier + width))
    (opens : starts.head? = some first) (ends : (starts.getLast?).map (· + width) = some stop)
    (lower : first ≤ place) (upper : place < stop) :
    ∃ start ∈ starts, start ≤ place ∧ place < start + width := by
  induction starts generalizing first with
  | nil => contradiction
  | cons start rest ih =>
      cases opens
      by_cases needed : place < start + width
      · exact ⟨start, List.mem_cons_self, lower, needed⟩
      · cases rest with
        | nil =>
            cases ends
            exact absurd upper needed
        | cons second others =>
            obtain ⟨close, later⟩ := List.isChain_cons_cons.mp linked
            obtain ⟨found, member, holds⟩ := ih later rfl ends (by omega)
            exact ⟨found, List.mem_cons_of_mem _ member, holds⟩

/-- A window fetches exactly the tokens that its starts need. -/
theorem Window.Spans.fetches_iff {window : Window} (spans : window.Spans width)
    (ordered : window.starts.Pairwise (· ≤ ·))
    (linked : window.starts.IsChain (fun earlier later => later ≤ earlier + width)) (place : Int) :
    window.Fetches place ↔ ∃ start ∈ window.starts, start ≤ place ∧ place < start + width := by
  constructor
  · rintro ⟨lower, upper⟩
    exact exists_start_of_linked linked spans.first spans.stop lower upper
  · rintro ⟨start, member, lower, upper⟩
    exact ⟨Int.le_trans (spans.first_le ordered start member) lower,
      Int.lt_of_lt_of_le upper (spans.le_stop ordered start member)⟩

/-- A group begins at one of the starts that it was made of, so behind all that came before. -/
theorem le_first_of_windowsFrom (ordered : (last :: rest).Pairwise (· ≤ ·)) :
    ∀ window ∈ windowsFrom width last [] last rest, last ≤ window.first := by
  intro window member
  have spans := windowsFrom_spans rfl window member
  have inside : window.first ∈ (windowsFrom width last [] last rest).flatMap Window.starts :=
    List.mem_flatMap_of_mem member spans.first_mem
  rw [windowsFrom_starts] at inside
  rcases List.mem_cons.mp inside with same | behind
  · exact Int.le_of_eq same.symm
  · exact (List.pairwise_cons.mp ordered).1 _ behind

theorem windowsFrom_apart (ordered : (last :: rest).Pairwise (· ≤ ·)) :
    (windowsFrom width first group last rest).Pairwise
      (fun earlier later => earlier.stop < later.first) := by
  fun_induction windowsFrom width first group last rest with
  | case1 first group last => exact List.pairwise_singleton _ _
  | case2 first group last start rest apart ih =>
      have behind := (List.pairwise_cons.mp ordered).2
      refine List.pairwise_cons.mpr ⟨fun later member => ?_, ih behind⟩
      exact Int.lt_of_lt_of_le apart (le_first_of_windowsFrom behind later member)
  | case3 first group last start rest close ih => exact ih (List.pairwise_cons.mp ordered).2

theorem windows_apart (ordered : starts.Pairwise (· ≤ ·)) :
    (windows width starts).Pairwise (fun earlier later => earlier.stop < later.first) := by
  cases starts with
  | nil => exact .nil
  | cons start rest => exact windowsFrom_apart ordered

/-- The windows of any starts part these in their order, and each reaches from its first start to one
width behind its last one. Of starts that do not descend, each window fetches what its starts need
and nothing else, and ends before the next one begins, so that no token is fetched twice. -/
theorem windows_cover (width : Int) (starts : List Int) :
    (windows width starts).flatMap Window.starts = starts ∧
    (∀ window ∈ windows width starts, window.starts ≠ [] ∧
      window.starts.head? = some window.first ∧
      (window.starts.getLast?).map (· + width) = some window.stop) ∧
    (starts.Pairwise (· ≤ ·) →
      (∀ window ∈ windows width starts,
        (∀ start ∈ window.starts, window.first ≤ start ∧ start + width ≤ window.stop) ∧
        ∀ place, window.Fetches place ↔
          ∃ start ∈ window.starts, start ≤ place ∧ place < start + width) ∧
      (windows width starts).Pairwise (fun earlier later => earlier.stop < later.first ∧
        ∀ place, ¬ (earlier.Fetches place ∧ later.Fetches place))) := by
  refine ⟨windows_starts width starts, ?_, fun ordered => ⟨?_, ?_⟩⟩
  · intro window member
    have spans := windows_spans window member
    exact ⟨spans.ne_nil, spans.first, spans.stop⟩
  · intro window member
    have spans := windows_spans window member
    have sorted := ordered.sublist (starts_sublist member)
    exact ⟨fun start inside => ⟨spans.first_le sorted start inside, spans.le_stop sorted start inside⟩,
      spans.fetches_iff sorted (windows_linked window member)⟩
  · refine (windows_apart ordered).imp (fun apart => ⟨apart, ?_⟩)
    rintro place ⟨⟨_, before⟩, behind, _⟩
    omega

/-- Ranges that touch share a window. -/
theorem touching_ranges_cover :
    windows 3 [2, 3, 3, 9, 12] = [⟨2, 6, [2, 3, 3]⟩, ⟨9, 15, [9, 12]⟩] ∧
    (∀ window ∈ windows 3 [2, 3, 3, 9, 12],
      (∀ start ∈ window.starts, window.first ≤ start ∧ start + 3 ≤ window.stop) ∧
      ∀ place, window.Fetches place ↔
        ∃ start ∈ window.starts, start ≤ place ∧ place < start + 3) ∧
    (windows 3 [2, 3, 3, 9, 12]).Pairwise (fun earlier later => earlier.stop < later.first ∧
      ∀ place, ¬ (earlier.Fetches place ∧ later.Fetches place)) :=
  ⟨by decide, (windows_cover 3 [2, 3, 3, 9, 12]).2.2 (by decide)⟩

end TokenSearch.Search
