/-!
# `SharedPorts.Proofs.Attempt` — steps that may fail

Readers of texts, walks through directories and readers of lists go step by step, and the first step that
fails is the failure of all. Here this is said once, for one step behind another and for a run of them.

## Contents
- **Steps.** `map_eq_ok_iff`, `bind_eq_ok_iff` and `mapError_eq_ok_iff`, and the same for errors.
- **Runs.** `foldlM_cons_eq_ok_iff`, steps from state to state; `mapM_eq_error_iff`, steps along a list.
-/

namespace SharedPorts

variable {ε φ α β : Type} {x : Except ε α} {a : α} {b : β} {e : ε}

/-! ## Steps -/

theorem map_eq_ok_iff {g : α → β} : g <$> x = .ok b ↔ ∃ a, x = .ok a ∧ g a = b := by
  cases x <;> simp [Functor.map, Except.map]

theorem map_eq_error_iff {g : α → β} : g <$> x = .error e ↔ x = .error e := by
  cases x <;> simp [Functor.map, Except.map]

theorem bind_eq_ok_iff {k : α → Except ε β} : x >>= k = .ok b ↔ ∃ a, x = .ok a ∧ k a = .ok b := by
  cases x <;> simp [bind, Except.bind]

theorem bind_eq_error_iff {k : α → Except ε β} :
    x >>= k = .error e ↔ x = .error e ∨ ∃ a, x = .ok a ∧ k a = .error e := by
  cases x <;> simp [bind, Except.bind]

/-- Whatever an error is turned into, a success stays what it is. -/
theorem mapError_eq_ok_iff {f : ε → φ} : x.mapError f = .ok a ↔ x = .ok a := by
  cases x with
  | error e => exact iff_of_false nofun nofun
  | ok value =>
    constructor
    · intro h
      rw [Except.ok.inj h]
    · intro h
      rw [Except.ok.inj h]
      rfl

theorem exists_error_of_mapError {f : ε → φ} {e : φ} (h : x.mapError f = .error e) :
    ∃ fault, x = .error fault := by
  cases x with
  | error fault => exact ⟨fault, rfl⟩
  | ok value => exact absurd h nofun

/-! ## Runs -/

/-- The first step of a run succeeds, and so does the rest from where it leads. -/
theorem foldlM_cons_eq_ok_iff {step : β → α → Except ε β} {as : List α} {last : β} :
    (a :: as).foldlM step b = .ok last ↔ ∃ next, step b a = .ok next ∧ as.foldlM step next = .ok last := by
  rw [List.foldlM_cons, bind_eq_ok_iff]

/-- A list cannot be read where one of its elements cannot. -/
theorem mapM_eq_error_iff (f : α → Except ε β) (xs : List α) :
    (∃ e, xs.mapM f = .error e) ↔ ∃ x ∈ xs, ∃ e, f x = .error e := by
  induction xs with
  | nil => simp [pure, Except.pure]
  | cons x xs ih =>
    rw [List.mapM_cons]
    simp only [bind_eq_error_iff, List.mem_cons, exists_eq_or_imp, ← ih]
    constructor
    · rintro ⟨e, he | ⟨y, -, he | ⟨ys, -, hpure⟩⟩⟩
      · exact Or.inl ⟨e, he⟩
      · exact Or.inr ⟨e, he⟩
      · exact absurd hpure nofun
    · rintro (⟨e, he⟩ | ⟨e, he⟩)
      · exact ⟨e, Or.inl he⟩
      · -- an error further behind is met only if the first element can be read
        cases hx : f x with
        | error e' => exact ⟨e', Or.inl rfl⟩
        | ok y => exact ⟨e, Or.inr ⟨y, rfl, Or.inl he⟩⟩

end SharedPorts
