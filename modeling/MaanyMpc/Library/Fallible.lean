import Mathlib.Data.List.Basic

/-! # Computations that can fail -/

namespace Fallible

variable {α β ε : Type}

theorem bind_eq_ok {x : Except ε α} {f : α → Except ε β} {b : β} :
    x >>= f = .ok b ↔ ∃ a, x = .ok a ∧ f a = .ok b := by
  cases x with
  | error err => simp [bind, Except.bind]
  | ok a => simp [bind, Except.bind]

theorem bind_eq_error {x : Except ε α} {f : α → Except ε β} {err : ε} :
    x >>= f = .error err ↔ x = .error err ∨ ∃ a, x = .ok a ∧ f a = .error err := by
  cases x with
  | error first => simp [bind, Except.bind]
  | ok a => simp [bind, Except.bind]

theorem map_eq_ok {x : Except ε α} {f : α → β} {b : β} :
    x.map f = .ok b ↔ ∃ a, x = .ok a ∧ f a = b := by
  cases x with
  | error err => simp [Except.map]
  | ok a => simp [Except.map]

theorem exists_map_eq_error {x : Except ε α} {f : α → β} :
    (∃ err, x.map f = .error err) ↔ ¬ ∃ a, x = .ok a := by
  cases x with
  | error err => simp [Except.map]
  | ok a => simp [Except.map]

theorem error_ne_ok {err : ε} {a : α} : (Except.error err : Except ε α) ≠ .ok a := by
  intro same
  cases same

/-- A traversal all of whose steps succeed is a map. -/
theorem mapM_eq_map {f : α → Except ε β} {g : α → β} {xs : List α}
    (h : ∀ x ∈ xs, f x = .ok (g x)) : xs.mapM f = .ok (xs.map g) := by
  induction xs with
  | nil => rfl
  | cons x xs ih =>
      have rest := ih fun y hy => h y (List.mem_cons_of_mem x hy)
      rw [List.mapM_cons, h x List.mem_cons_self, rest]
      rfl

/-- A traversal that succeeds does so at every step. -/
theorem forall_of_mapM_eq_ok {f : α → Except ε β} {xs : List α} {ys : List β}
    (h : xs.mapM f = .ok ys) : ∀ x ∈ xs, ∃ y, f x = .ok y := by
  induction xs generalizing ys with
  | nil => simp
  | cons x xs ih =>
      rw [List.mapM_cons] at h
      obtain ⟨y, first, later⟩ := bind_eq_ok.mp h
      obtain ⟨ys, rest, _⟩ := bind_eq_ok.mp later
      exact List.forall_mem_cons.mpr ⟨⟨y, first⟩, ih rest⟩

/-- A traversal fails with the error of one of its steps. -/
theorem exists_of_mapM_eq_error {f : α → Except ε β} {xs : List α} {err : ε}
    (h : xs.mapM f = .error err) : ∃ x ∈ xs, f x = .error err := by
  induction xs with
  | nil => cases h
  | cons x xs ih =>
      rw [List.mapM_cons] at h
      cases hx : f x with
      | error first =>
          obtain rfl : first = err := by simpa [hx, bind, Except.bind] using h
          exact ⟨x, List.mem_cons_self, hx⟩
      | ok b =>
          cases hxs : xs.mapM f with
          | error later =>
              obtain rfl : later = err := by simpa [hx, hxs, bind, Except.bind] using h
              obtain ⟨y, hy, failed⟩ := ih hxs
              exact ⟨y, List.mem_cons_of_mem x hy, failed⟩
          | ok bs => simp [hx, hxs, bind, Except.bind, pure, Except.pure] at h

end Fallible
