import Mathlib.Algebra.Polynomial.Div

/-! # Remainders by a register

A register of coefficients takes in one coefficient at a time. It shifts, and takes off as many
times the divisor as its highest coefficient says. -/

namespace PolynomialRegister

open Polynomial

variable {R : Type*} [CommRing R]

/-- The polynomial of a list of coefficients behind one that is there already. -/
noncomputable def append (p : R[X]) (v : R) : R[X] := X * p + C v

noncomputable def step (g s : R[X]) (v : R) : R[X] :=
  X * s + C v - C (s.coeff (g.natDegree - 1)) * g

theorem foldl_append {α : Type*} (f : α → R) (p : R[X]) (vs : List α) :
    (vs.map f).foldl append p = X ^ vs.length * p +
      ∑ i : Fin vs.length, C (f (vs.get i)) * X ^ (vs.length - 1 - i.val) := by
  induction vs generalizing p with
  | nil => simp
  | cons v vs ih =>
      have rest (i : Fin vs.length) : vs.length - 1 - i.val = vs.length - i.succ.val := by
        rw [Fin.val_succ]
        omega
      simp only [rest] at ih
      rw [List.map_cons, List.foldl_cons, ih, append]
      change _ = X ^ (vs.length + 1) * p +
        ∑ i : Fin (vs.length + 1), C (f ((v :: vs).get i)) * X ^ (vs.length - i.val)
      rw [Fin.sum_univ_succ]
      simp only [List.get_cons_zero, List.get_cons_succ', Fin.val_zero, Nat.sub_zero]
      ring

variable [Nontrivial R] {g : R[X]} (monic : g.Monic) (positive : 0 < g.natDegree)

include monic positive

/-- The highest coefficient is taken off. -/
theorem degree_step_lt {s : R[X]} (small : s.degree < g.degree) (v : R) :
    (step g s v).degree < g.degree := by
  rw [degree_eq_natDegree monic.ne_zero, degree_lt_iff_coeff_zero] at small ⊢
  intro i high
  obtain ⟨j, rfl⟩ : ∃ j, i = j + 1 := ⟨i - 1, by omega⟩
  rw [step, coeff_sub, coeff_add, coeff_X_mul, coeff_C_succ, add_zero, coeff_C_mul]
  by_cases top : j + 1 = g.natDegree
  · rw [top, monic.coeff_natDegree, mul_one, ← top, Nat.add_sub_cancel, sub_self]
  · have above : g.coeff (j + 1) = 0 := coeff_eq_zero_of_natDegree_lt (by omega)
    rw [small j (by omega), above, mul_zero, sub_zero]

/-- A step on a remainder is the remainder with one more coefficient. -/
theorem step_modByMonic (p : R[X]) (v : R) : step g (p %ₘ g) v = append p v %ₘ g := by
  have division := modByMonic_add_div p g
  refine (div_modByMonic_unique (X * (p /ₘ g) + C ((p %ₘ g).coeff (g.natDegree - 1))) _ monic
    ⟨?_, degree_step_lt monic positive (degree_modByMonic_lt p monic) v⟩).2.symm
  calc
    step g (p %ₘ g) v + g * (X * (p /ₘ g) + C ((p %ₘ g).coeff (g.natDegree - 1))) =
        X * (p %ₘ g + g * (p /ₘ g)) + C v := by
      rw [step]
      ring
    _ = append p v := by rw [division, append]

theorem foldl_step (p : R[X]) (vs : List R) :
    vs.foldl (step g) (p %ₘ g) = vs.foldl append p %ₘ g := by
  induction vs generalizing p with
  | nil => rfl
  | cons v vs ih => rw [List.foldl_cons, step_modByMonic monic positive, ih, List.foldl_cons]

end PolynomialRegister
