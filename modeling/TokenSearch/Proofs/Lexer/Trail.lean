import TokenSearch.Proofs.Lexer.Fragment

namespace TokenSearch.Lexer

/-! What a scan leaves behind: the tokens that it gives in the end, on lines that ascend. What it
leaves behind up to a stand does not depend on the text in front of that stand. -/

open Text

namespace Stand

variable {s t : Stand}

theorem Leads.lex_eq {cs : List Char} (leads : (atStart cs).Leads s) :
    lex (Utf8.encode cs) = s.run := by
  rw [lex_encode]
  exact leads.run_eq

theorem leads_to_last (s : Stand) : ∃ t, s.Leads t ∧ s.run.tokens = t.seen.reverse := by
  obtain ⟨t, reached, ⟨_, all⟩ | ⟨_, _, failed⟩⟩ := s.leads_to_stop
  · exact ⟨t, reached, by rw [reached.run_eq, all]⟩
  · exact ⟨t, reached, by rw [reached.run_eq, failed]⟩

theorem tokens_of_leads (leads : s.Leads t) : t.seen.reverse <+: s.run.tokens := by
  obtain ⟨u, reached, given⟩ := t.leads_to_last
  rw [leads.run_eq, given, List.reverse_prefix]
  exact reached.seen_suffix

/-- The lexeme that a scan goes over is the next token that it gives. -/
theorem Leads.gives {cs : List Char} {kind : LexemeKind} {n : Nat} (leads : (atStart cs).Leads s)
    (found : s.next = some (kind, n)) (kept : kind.isSkipped = false) :
    ∃ token : Token, s.seen.reverse ++ [token] <+: (lex (Utf8.encode cs)).tokens ∧
      token.start = s.place ∧ token.stop = token.start.advance token.text.toList ∧
      token.text.toList = s.rest.take n ∧ classify kind token.text = some token.kind := by
  obtain ⟨n, rfl⟩ := Nat.exists_eq_add_of_le' (nextLexeme_pos found)
  obtain ⟨token, pushed, start, stop, text, classified⟩ := s.seen_past (n + 1) kept
  have spelled : token.text.toList = s.rest.take (n + 1) := by rw [text, String.toList_ofList]
  refine ⟨token, ?_, start, by rw [start, spelled]; exact stop, spelled, classified⟩
  have given := tokens_of_leads (.step found (.refl _))
  rw [pushed, List.reverse_cons, ← leads.lex_eq] at given
  exact given

/-- What a scan finds further on starts on its line or below. -/
theorem lines_behind (leads : s.Leads t) :
    ∀ token ∈ t.seen, token ∈ s.seen ∨ s.place.line ≤ token.start.line := by
  induction leads with
  | refl s => exact fun token member => .inl member
  | @step s t kind n found later ih =>
      intro token member
      have onward := s.place.line_le_advance (s.rest.take (n + 1))
      rcases ih token member with earlier | below
      · cases skipped : kind.isSkipped with
        | true =>
            rw [past_skipped s (n + 1) skipped] at earlier
            exact .inl earlier
        | false =>
            obtain ⟨other, pushed, start, _⟩ := s.seen_past (n + 1) skipped
            rw [pushed] at earlier
            rcases List.mem_cons.mp earlier with same | before
            · rw [same, start]
              exact .inr (Int.le_refl _)
            · exact .inl before
      · rw [place_past] at below
        exact .inr (onward.trans below)

/-- The tokens behind a scan lie on lines in the order of the text. -/
theorem lines_ordered {cs : List Char} (leads : (atStart cs).Leads t) :
    t.seen.reverse.Pairwise (fun a b => a.stop.line ≤ b.start.line) := by
  rw [List.pairwise_iff_getElem]
  intro i j first second before
  obtain ⟨u, kind, n, reached, next, later, size, _, here, _⟩ :=
    leads.standing (Nat.zero_le j) (List.getElem?_eq_getElem second)
  have member : t.seen.reverse[i] ∈ u.seen := by
    have front : u.seen.reverse <+: t.seen.reverse :=
      List.reverse_prefix.mpr ((Leads.step next later).seen_suffix)
    have inside : i < u.seen.reverse.length := by
      rw [List.length_reverse, size]
      exact before
    rw [← front.getElem inside]
    exact List.mem_reverse.mp (List.getElem_mem inside)
  rw [← here]
  exact ((lines_of_leads reached).2 _ member).2.2

/-- The way of a scan to a stand does not depend on the text in front of that stand. -/
theorem Leads.cut (leads : s.Leads t) : ∃ before, s.rest = before ++ t.rest ∧
    t.place = s.place.advance before ∧
    (⟨s.place, s.seen, before⟩ : Stand).Leads ⟨t.place, t.seen, []⟩ := by
  induction leads with
  | refl s => exact ⟨[], rfl, rfl, .refl _⟩
  | @step s t kind n found _ ih =>
      obtain ⟨before, whole, there, reached⟩ := ih
      rw [rest_past] at whole
      rw [place_past] at there
      have bound := nextLexeme_le found
      have front : (s.rest.take (n + 1) ++ before).take (n + 1) = s.rest.take (n + 1) :=
        List.take_left' (List.length_take_of_le bound)
      have split : s.rest = s.rest.take (n + 1) ++ before ++ t.rest := by
        rw [List.append_assoc, ← whole, List.take_append_drop]
      refine ⟨s.rest.take (n + 1) ++ before, split, ?_, ?_⟩
      · rw [there, Position.advance_append]
      -- the lexeme is read again where the text ends at the stand
      have next : (⟨s.place, s.seen, s.rest.take (n + 1) ++ before⟩ : Stand).next =
          some (kind, n + 1) := by
        have cut := nextLexeme_take found
          (m := (s.rest.take (n + 1) ++ before).length) (by simp; omega)
        rwa [← List.prefix_iff_eq_take.mp ⟨t.rest, split.symm⟩] at cut
      refine .step next ?_
      have same : (⟨s.place, s.seen, s.rest.take (n + 1) ++ before⟩ : Stand).past kind (n + 1) =
          ⟨(s.past kind (n + 1)).place, (s.past kind (n + 1)).seen, before⟩ := by
        have back : (s.rest.take (n + 1) ++ before).drop (n + 1) = before :=
          List.drop_left' (List.length_take_of_le bound)
        simp only [past, front, back]
      rw [same]
      exact reached

end Stand

end TokenSearch.Lexer
