import Mathlib.Algebra.CharP.Two
import Mathlib.Algebra.Field.ZMod
import Mathlib.Data.Nat.Bitwise
import Mathlib.Data.Nat.Size
import Mathlib.FieldTheory.Finiteness
import Mathlib.RingTheory.AdjoinRoot

/-! # Numbers as polynomials over two elements

The bits of a number are the coefficients. Exclusive or adds, a shift by one place multiplies by
`X`, and modulo a polynomial of degree `w` the numbers of `w` bits are the elements. -/

namespace BinaryPolynomial

open Polynomial

noncomputable def poly (n : ℕ) : (ZMod 2)[X] :=
  ∑ i ∈ Finset.range n.size, if n.testBit i then X ^ i else 0

theorem coeff_poly (n i : ℕ) : (poly n).coeff i = if n.testBit i then 1 else 0 := by
  have each (j : ℕ) : (if n.testBit j then X ^ j else 0 : (ZMod 2)[X]).coeff i =
      if i = j then (if n.testBit j then 1 else 0) else 0 := by
    by_cases bit : n.testBit j = true
    · rw [if_pos bit, if_pos bit, coeff_X_pow]
    · rw [if_neg bit, if_neg bit, coeff_zero, ite_self]
  rw [poly, finsetSum_coeff, Finset.sum_congr rfl fun j _ => each j, Finset.sum_ite_eq,
    ite_eq_left_iff]
  intro high
  rw [Finset.mem_range, Nat.lt_size, not_le] at high
  rw [Nat.testBit_lt_two_pow high, if_neg (by decide)]

theorem poly_xor (a b : ℕ) : poly (a ^^^ b) = poly a + poly b := by
  ext i
  rw [coeff_add, coeff_poly, coeff_poly, coeff_poly, Nat.testBit_xor]
  cases a.testBit i <;> cases b.testBit i <;> decide

theorem poly_two_mul (n : ℕ) : poly (2 * n) = X * poly n := by
  ext i
  cases i with
  | zero => simp [coeff_poly]
  | succ i => simp [coeff_poly, coeff_X_mul, Nat.testBit_succ]

theorem degree_poly_lt {n w : ℕ} (h : n < 2 ^ w) : (poly n).degree < w := by
  rw [degree_lt_iff_coeff_zero]
  intro i high
  have above : n < 2 ^ i := Nat.lt_of_lt_of_le h (Nat.pow_le_pow_right (by decide) high)
  rw [coeff_poly, Nat.testBit_lt_two_pow above, if_neg (by decide)]

theorem poly_injective : Function.Injective poly := by
  intro a b same
  apply Nat.eq_of_testBit_eq
  intro i
  have coefficients := congrArg (·.coeff i) same
  simp only [coeff_poly] at coefficients
  revert coefficients
  cases a.testBit i <;> cases b.testBit i <;> decide

/-! ## Modulo a polynomial -/

/-- The element of a number. -/
noncomputable def element (f : (ZMod 2)[X]) (n : ℕ) : AdjoinRoot f := AdjoinRoot.mk f (poly n)

variable {f : (ZMod 2)[X]}

theorem element_xor (a b : ℕ) : element f (a ^^^ b) = element f a + element f b := by
  rw [element, poly_xor, map_add]
  rfl

theorem element_two_mul (n : ℕ) : element f (2 * n) = AdjoinRoot.root f * element f n := by
  rw [element, poly_two_mul, map_mul, AdjoinRoot.mk_X]
  rfl

@[simp] theorem element_zero : element f 0 = 0 := by
  have double := element_xor (f := f) 0 0
  rwa [Nat.xor_self, left_eq_add] at double

@[simp] theorem element_one : element f 1 = 1 := by
  have one : poly 1 = 1 := by simp [poly]
  rw [element, one, map_one]

theorem element_injOn {w : ℕ} (degree : f.degree = w) {a b : ℕ} (ha : a < 2 ^ w)
    (hb : b < 2 ^ w) (same : element f a = element f b) : a = b := by
  have divides : f ∣ poly (a ^^^ b) := by
    have difference := AdjoinRoot.mk_eq_mk.mp same
    rwa [ZModModule.sub_eq_add, ← poly_xor] at difference
  have small : (poly (a ^^^ b)).degree < f.degree := by
    rw [degree]
    exact degree_poly_lt (Nat.xor_lt_two_pow ha hb)
  have zero : poly (a ^^^ b) = poly 0 := by
    rw [eq_zero_of_dvd_of_degree_lt divides small]
    simp [poly]
  exact Nat.xor_eq_zero_iff.mp (poly_injective zero)

/-- A shift by one place, with the modulus taken off where the last bit is set. -/
def double (m w n : ℕ) : ℕ := if n.testBit (w - 1) then 2 * n ^^^ m else 2 * n

theorem element_double {m : ℕ} (modulus : poly m = f) (w n : ℕ) :
    element f (double m w n) = AdjoinRoot.root f * element f n := by
  have zero : element f m = 0 := by
    rw [element, modulus, AdjoinRoot.mk_self]
  unfold double
  split
  · rw [element_xor, element_two_mul, zero, add_zero]
  · exact element_two_mul n

/-- The product with a number of `k` bits, from its lowest one on. -/
def mul (m w : ℕ) : (k u v : ℕ) → ℕ
  | 0, _, _ => 0
  | k + 1, u, v => (if u.testBit 0 then v else 0) ^^^ mul m w k (u / 2) (double m w v)

theorem poly_div_two (n : ℕ) :
    poly n = (if n.testBit 0 then 1 else 0) + X * poly (n / 2) := by
  ext i
  cases i with
  | zero => cases bit : n.testBit 0 <;> simp [coeff_poly, bit]
  | succ i => cases n.testBit 0 <;> simp [coeff_poly, Nat.testBit_succ, coeff_X_mul, coeff_one]

theorem element_mul {m : ℕ} (modulus : poly m = f) (w : ℕ) {k u : ℕ} (h : u < 2 ^ k) (v : ℕ) :
    element f (mul m w k u v) = element f u * element f v := by
  induction k generalizing u v with
  | zero =>
      obtain rfl : u = 0 := by omega
      rw [mul, element_zero, zero_mul]
  | succ k ih =>
      have half : u / 2 < 2 ^ k := by
        rw [pow_succ] at h
        omega
      have split : element f u =
          (if u.testBit 0 then 1 else 0) + AdjoinRoot.root f * element f (u / 2) := by
        rw [element, poly_div_two, map_add, map_mul, AdjoinRoot.mk_X]
        cases u.testBit 0 <;> simp [element]
      rw [mul, element_xor, ih half, element_double modulus, split]
      cases u.testBit 0
      · simp only [Bool.false_eq_true, if_false, element_zero]
        ring
      · simp only [if_true]
        ring

/-- The elements are the numbers of `w` bits. -/
theorem element_bijective {w : ℕ} (monic : f.Monic) (degree : f.natDegree = w) :
    Function.Bijective fun n : Fin (2 ^ w) => element f n := by
  have injective : Function.Injective fun n : Fin (2 ^ w) => element f n := by
    intro a b same
    refine Fin.ext (element_injOn ?_ a.isLt b.isLt same)
    rw [degree_eq_natDegree monic.ne_zero, degree]
  have finite := monic.finite_adjoinRoot
  have card : Nat.card (AdjoinRoot f) = 2 ^ w := by
    rw [Module.natCard_eq_pow_finrank (K := ZMod 2), (AdjoinRoot.powerBasis' monic).finrank,
      AdjoinRoot.powerBasis'_dim, degree, Nat.card_zmod]
  have : Finite (AdjoinRoot f) := Module.finite_of_finite (ZMod 2)
  refine injective.bijective_of_nat_card_le ?_
  rw [card, Nat.card_fin]

end BinaryPolynomial
