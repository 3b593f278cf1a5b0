import PgFragment.Failure.Cause

namespace PgFragment.Success

/-!
# When a computation succeeds

A computation that may fail succeeds exactly when each of its steps does.  These equivalences take
such a computation apart without opening it.
-/

variable {ε α β : Type}

theorem bind_eq_ok_iff {x : Except ε α} {f : α → Except ε β} {b : β} :
    x >>= f = .ok b ↔ ∃ a, x = .ok a ∧ f a = .ok b := by
  cases x <;> simp [bind, Except.bind]

theorem toOption_eq_some_iff {x : Except ε α} {a : α} : x.toOption = some a ↔ x = .ok a := by
  cases x <;> simp [Except.toOption]

theorem mapError_eq_ok_iff {δ : Type} {x : Except ε α} {f : ε → δ} {a : α} :
    x.mapError f = .ok a ↔ x = .ok a := by
  cases x with
  | error e => exact ⟨nofun, nofun⟩
  | ok b =>
    show Except.ok b = Except.ok a ↔ Except.ok b = Except.ok a
    rw [Except.ok.injEq, Except.ok.injEq]

theorem map_eq_ok_iff {x : Except ε α} {f : α → β} {b : β} :
    f <$> x = .ok b ↔ ∃ a, x = .ok a ∧ f a = b := by
  cases x <;> simp [Functor.map, Except.map]

theorem pure_eq_ok_iff {a b : α} : (pure a : Except ε α) = .ok b ↔ a = b := by
  simp [pure, Except.pure]

/-- A walk over a list succeeds exactly when every step does, with the results in order. -/
theorem mapM_eq_ok_iff {f : α → Except ε β} {xs : List α} {ys : List β} :
    xs.mapM f = .ok ys ↔ xs.map f = ys.map .ok := by
  induction xs generalizing ys with
  | nil =>
    rw [List.mapM_nil, pure_eq_ok_iff]
    cases ys <;> simp
  | cons x xs ih =>
    rw [List.mapM_cons]
    simp only [bind_eq_ok_iff, pure_eq_ok_iff, ih]
    cases ys with
    | nil => simp
    | cons y ys =>
      simp only [List.map_cons, List.cons.injEq]
      constructor
      · rintro ⟨a, ha, as, has, rfl, rfl⟩
        exact ⟨ha, has⟩
      · rintro ⟨ha, has⟩
        exact ⟨y, ha, ys, has, rfl, rfl⟩

/-- Where every step of a walk succeeds, the step at a member does. -/
theorem exists_eq_ok_of_mem {f : α → Except ε β} {xs : List α} {ys : List β}
    (h : xs.map f = ys.map .ok) {x : α} (hx : x ∈ xs) : ∃ y, f x = .ok y := by
  have hm : f x ∈ ys.map .ok := h ▸ List.mem_map_of_mem hx
  obtain ⟨y, -, hy⟩ := List.mem_map.1 hm
  exact ⟨y, hy.symm⟩

/-- Every result of a walk is that of the step at some member. -/
theorem exists_mem_eq_ok {f : α → Except ε β} {xs : List α} {ys : List β}
    (h : xs.map f = ys.map .ok) {y : β} (hy : y ∈ ys) : ∃ x ∈ xs, f x = .ok y := by
  have hm : .ok y ∈ xs.map f := h ▸ List.mem_map_of_mem hy
  obtain ⟨x, hx, hfx⟩ := List.mem_map.1 hm
  exact ⟨x, hx, hfx⟩

/-- The same of a step that may be absent. -/
theorem exists_mem_option_eq_ok {f : α → Except ε β} {o : Option α} {y : β}
    (h : o.map f = (some y).map .ok) : ∃ x ∈ o, f x = .ok y := by
  obtain ⟨x, hx, hfx⟩ := Option.map_eq_some_iff.1 h
  exact ⟨x, hx, hfx⟩

/-- Where the step at every member succeeds, the whole walk does. -/
theorem exists_map_eq_ok {f : α → Except ε β} {xs : List α} (h : ∀ x ∈ xs, ∃ y, f x = .ok y) :
    ∃ ys : List β, xs.map f = ys.map .ok := by
  induction xs with
  | nil => exact ⟨[], rfl⟩
  | cons x xs ih =>
    obtain ⟨y, hy⟩ := h x List.mem_cons_self
    obtain ⟨ys, hys⟩ := ih fun z hz => h z (List.mem_cons_of_mem x hz)
    exact ⟨y :: ys, by rw [List.map_cons, List.map_cons, hy, hys]⟩

/-- The same of a step that may be absent. -/
theorem exists_option_map_eq_ok {f : α → Except ε β} {o : Option α}
    (h : ∀ x ∈ o, ∃ y, f x = .ok y) : ∃ y : Option β, o.map f = y.map .ok := by
  cases o with
  | none => exact ⟨none, rfl⟩
  | some x =>
    obtain ⟨y, hy⟩ := h x rfl
    exact ⟨some y, by rw [Option.map_some, Option.map_some, hy]⟩

end PgFragment.Success
