namespace TokenSearch.Data

/-! Steps that may fail, one after the other. -/

variable {ε α β : Type}

theorem bind_eq_ok {first : Except ε α} {next : α → Except ε β} {b : β} :
    (first >>= next) = .ok b ↔ ∃ a, first = .ok a ∧ next a = .ok b := by
  cases first with
  | error e => simp [bind, Except.bind]
  | ok a => simp [bind, Except.bind]

theorem ok_bind (a : α) (next : α → Except ε β) : (Except.ok a >>= next) = next a := rfl

theorem bind_eq_error {first : Except ε α} {next : α → Except ε β} {error : ε} :
    (first >>= next) = .error error ↔
      first = .error error ∨ ∃ a, first = .ok a ∧ next a = .error error := by
  cases first with
  | error e => simp [bind, Except.bind]
  | ok a => simp [bind, Except.bind]

theorem ok_mapError {δ : Type} (a : α) (convert : ε → δ) :
    (Except.ok a : Except ε α).mapError convert = .ok a := rfl

theorem error_mapError {δ : Type} (error : ε) (convert : ε → δ) :
    (Except.error error : Except ε α).mapError convert = .error (convert error) := rfl

theorem mapError_eq_ok {δ : Type} {result : Except ε α} {convert : ε → δ} {a : α} :
    result.mapError convert = .ok a ↔ result = .ok a := by
  cases result with
  | error e => simp [error_mapError]
  | ok b => simp [ok_mapError]

theorem pure_eq_ok (a : α) : (pure a : Except ε α) = .ok a := rfl

theorem mapM_ok {step : α → Except ε β} {value : α → β} {xs : List α}
    (each : ∀ a ∈ xs, step a = .ok (value a)) : xs.mapM step = .ok (xs.map value) := by
  induction xs with
  | nil => rfl
  | cons a rest ih =>
      rw [List.mapM_cons, each a List.mem_cons_self, ok_bind,
        ih (fun b member => each b (List.mem_cons_of_mem _ member))]
      rfl

theorem mapM_cons_eq_ok {step : α → Except ε β} {a : α} {rest : List α} {ys : List β} :
    (a :: rest).mapM step = .ok ys ↔
      ∃ b others, step a = .ok b ∧ rest.mapM step = .ok others ∧ ys = b :: others := by
  rw [List.mapM_cons, bind_eq_ok]
  simp only [bind_eq_ok, pure_eq_ok, Except.ok.injEq]
  grind

theorem length_of_mapM {step : α → Except ε β} {xs : List α} {ys : List β}
    (found : xs.mapM step = .ok ys) : ys.length = xs.length := by
  induction xs generalizing ys with
  | nil =>
      cases found
      rfl
  | cons a rest ih =>
      obtain ⟨b, others, _, later, rfl⟩ := mapM_cons_eq_ok.mp found
      rw [List.length_cons, List.length_cons, ih later]

theorem each_of_mapM {step : α → Except ε β} {xs : List α} {ys : List β}
    (found : xs.mapM step = .ok ys) : ∀ a ∈ xs, ∃ b, step a = .ok b := by
  induction xs generalizing ys with
  | nil => simp
  | cons a rest ih =>
      obtain ⟨b, others, first, later, rfl⟩ := mapM_cons_eq_ok.mp found
      exact List.forall_mem_cons.mpr ⟨⟨b, first⟩, ih later⟩

theorem mem_of_mapM {step : α → Except ε β} {xs : List α} {ys : List β}
    (found : xs.mapM step = .ok ys) {b : β} : b ∈ ys ↔ ∃ a ∈ xs, step a = .ok b := by
  induction xs generalizing ys with
  | nil =>
      cases found
      simp
  | cons a rest ih =>
      obtain ⟨first, others, looked, later, rfl⟩ := mapM_cons_eq_ok.mp found
      rw [List.mem_cons, ih later]
      simp [looked, eq_comm]

theorem mapM_of_each {step : α → Except ε β} {xs : List α}
    (each : ∀ a ∈ xs, ∃ b, step a = .ok b) : ∃ ys, xs.mapM step = .ok ys := by
  induction xs with
  | nil => exact ⟨[], rfl⟩
  | cons a rest ih =>
      obtain ⟨b, first⟩ := each a List.mem_cons_self
      obtain ⟨others, later⟩ := ih (fun other member => each other (List.mem_cons_of_mem _ member))
      exact ⟨b :: others, mapM_cons_eq_ok.mpr ⟨b, others, first, later, rfl⟩⟩

end TokenSearch.Data
