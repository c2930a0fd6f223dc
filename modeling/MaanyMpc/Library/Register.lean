import Mathlib.Data.Nat.Bitwise
import Mathlib.Logic.Function.Iterate

/-! # Linear registers

A register of bits takes in a list of values. Before each of them it goes through a map that
respects exclusive or, so two runs differ by what the map makes of the difference. -/

namespace Register

/-- The map respects exclusive or. -/
def Linear (L : ℕ → ℕ) : Prop := ∀ a b, L (a ^^^ b) = L a ^^^ L b

def run (L : ℕ → ℕ) (s : ℕ) (values : List ℕ) : ℕ :=
  values.foldl (fun s value => L s ^^^ value) s

variable {L : ℕ → ℕ}

@[simp] theorem run_nil (s : ℕ) : run L s [] = s := rfl

@[simp] theorem run_cons (s value : ℕ) (values : List ℕ) :
    run L s (value :: values) = run L (L s ^^^ value) values := rfl

theorem run_append (s : ℕ) (xs ys : List ℕ) : run L s (xs ++ ys) = run L (run L s xs) ys :=
  List.foldl_append

theorem xor_cancel_middle (a b c : ℕ) : a ^^^ c ^^^ (b ^^^ c) = a ^^^ b := by
  rw [Nat.xor_comm b c, ← Nat.xor_assoc, Nat.xor_xor_cancel_right]

theorem Linear.zero (h : Linear L) : L 0 = 0 := by
  have double := h 0 0
  rwa [Nat.xor_self, Nat.xor_self] at double

/-- The same values leave nothing of two registers but their difference. -/
theorem run_xor (h : Linear L) (a b : ℕ) (values : List ℕ) :
    run L a values ^^^ run L b values = L^[values.length] (a ^^^ b) := by
  induction values generalizing a b with
  | nil => rfl
  | cons value values ih =>
      rw [run_cons, run_cons, ih, xor_cancel_middle, ← h, List.length_cons,
        Function.iterate_succ_apply]

/-- The register and the values contribute on their own. -/
theorem run_eq (h : Linear L) (s : ℕ) (values : List ℕ) :
    run L s values = L^[values.length] s ^^^ run L 0 values := by
  have difference := run_xor h s 0 values
  rw [Nat.xor_zero] at difference
  rw [← difference, Nat.xor_xor_cancel_right]

theorem run_replicate_zero (s n : ℕ) : run L s (List.replicate n 0) = L^[n] s := by
  induction n generalizing s with
  | zero => rfl
  | succ n ih => rw [List.replicate_succ, run_cons, Nat.xor_zero, ih, Function.iterate_succ_apply]

/-- Two lists with one different value. -/
theorem run_differ (h : Linear L) (s u v : ℕ) (front rest : List ℕ) :
    run L s (front ++ u :: rest) ^^^ run L s (front ++ v :: rest) =
      L^[rest.length] (u ^^^ v) := by
  rw [run_append, run_append, run_cons, run_cons, run_xor h, Nat.xor_comm _ v,
    Nat.xor_comm _ u, xor_cancel_middle]

/-- On registers below a bound the map keeps to it, and takes only zero to zero. -/
structure Regular (L : ℕ → ℕ) (bound : ℕ) : Prop where
  lt : ∀ s < bound, L s < bound
  eq_zero : ∀ s < bound, L s = 0 → s = 0

theorem Regular.iterate_ne_zero {bound : ℕ} (h : Regular L bound) {s : ℕ} (small : s < bound)
    (nonzero : s ≠ 0) (n : ℕ) : L^[n] s ≠ 0 := by
  induction n generalizing s with
  | zero => exact nonzero
  | succ n ih =>
      rw [Function.iterate_succ_apply]
      exact ih (h.lt s small) (mt (h.eq_zero s small) nonzero)

/-- One different value is seen in the end, after any number of others. -/
theorem run_ne_run {bound : ℕ} (h : Linear L) (regular : Regular L bound) {u v : ℕ}
    (small : u ^^^ v < bound) (differ : u ≠ v) (s : ℕ) (front rest : List ℕ) :
    run L s (front ++ u :: rest) ≠ run L s (front ++ v :: rest) := by
  intro same
  have difference := run_differ h s u v front rest
  rw [same, Nat.xor_self] at difference
  refine regular.iterate_ne_zero small ?_ rest.length difference.symm
  exact mt Nat.xor_eq_zero_iff.mp differ

end Register
