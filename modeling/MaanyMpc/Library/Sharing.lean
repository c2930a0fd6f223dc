import Mathlib.LinearAlgebra.Lagrange
import Mathlib.Algebra.BigOperators.Group.List.Basic

/-! # Threshold sharing over a field

A secret is the value at zero of a polynomial of degree below the threshold, a share is a
point of it. Interpolation is written over lists, as programs compute it. -/

namespace Sharing

open Polynomial

variable {F : Type*} [Field F] [DecidableEq F]

/-- The Lagrange basis polynomial of `node` among `nodes`, at `x`. -/
def basisAt (x : F) (nodes : List F) (node : F) : F :=
  ((nodes.erase node).map fun other => (x - other) / (node - other)).prod

/-- The value at `x` of the polynomial through the points. -/
def interpolateAt (x : F) (points : List (F × F)) : F :=
  (points.map fun point => point.2 * basisAt x (points.map Prod.fst) point.1).sum

theorem basisAt_eq_eval_basis (x : F) {nodes : List F} (distinct : nodes.Nodup) (node : F) :
    basisAt x nodes node = (Lagrange.basis nodes.toFinset id node).eval x := by
  have erased : nodes.toFinset.erase node = (nodes.erase node).toFinset := by
    ext other
    simp [distinct.mem_erase_iff]
  rw [Lagrange.basis, eval_prod, erased, List.prod_toFinset _ (distinct.erase node), basisAt]
  congr 1
  apply List.map_congr_left
  intro other _
  rw [Lagrange.basisDivisor, eval_mul, eval_C, eval_sub, eval_X, eval_C, div_eq_mul_inv, mul_comm]
  rfl

/-- Through enough points of a polynomial, interpolation finds the polynomial. -/
theorem interpolateAt_eq_eval {p : F[X]} (x : F) {points : List (F × F)}
    (distinct : (points.map Prod.fst).Nodup) (degree : p.degree < points.length)
    (on : ∀ point ∈ points, p.eval point.1 = point.2) :
    interpolateAt x points = p.eval x := by
  have card : (points.map Prod.fst).toFinset.card = points.length := by
    rw [List.toFinset_card_of_nodup distinct, List.length_map]
  have unique : p = Lagrange.interpolate (points.map Prod.fst).toFinset id
      fun node => p.eval node :=
    Lagrange.eq_interpolate Function.injective_id.injOn (by rw [card]; exact degree)
  calc interpolateAt x points
      = ((points.map Prod.fst).map fun node =>
          p.eval node * basisAt x (points.map Prod.fst) node).sum := by
        rw [interpolateAt, List.map_map]
        congr 1
        apply List.map_congr_left
        intro point mem
        rw [Function.comp_apply, on point mem]
    _ = ∑ node ∈ (points.map Prod.fst).toFinset,
          p.eval node * basisAt x (points.map Prod.fst) node :=
        (List.sum_toFinset _ distinct).symm
    _ = ∑ node ∈ (points.map Prod.fst).toFinset,
          p.eval node * (Lagrange.basis (points.map Prod.fst).toFinset id node).eval x := by
        simp only [basisAt_eq_eval_basis x distinct]
    _ = p.eval x := by
        conv_rhs => rw [unique]
        simp [Lagrange.interpolate_apply, eval_finsetSum]

/-- The points lie on a polynomial of degree below `threshold` whose value at zero is `secret`. -/
def Dealt (threshold : ℕ) (secret : F) (points : List (F × F)) : Prop :=
  ∃ p : F[X], p.degree < threshold ∧ p.eval 0 = secret ∧
    ∀ point ∈ points, p.eval point.1 = point.2

/-- Any `threshold` or more of the points, in any order, give the secret back. -/
theorem Dealt.recover {threshold : ℕ} {secret : F} {points chosen : List (F × F)}
    (dealt : Dealt threshold secret points) (subset : chosen ⊆ points)
    (distinct : (chosen.map Prod.fst).Nodup) (enough : threshold ≤ chosen.length) :
    interpolateAt 0 chosen = secret := by
  obtain ⟨p, degree, at_zero, on⟩ := dealt
  rw [← at_zero]
  apply interpolateAt_eq_eval 0 distinct
  · exact degree.trans_le (by exact_mod_cast enough)
  · intro point mem
    exact on point (subset mem)

/-! ## What fewer shares tell -/

/-- The share at `x` that the coefficients deal of the secret. -/
def deal {k : ℕ} (secret : F) (coefficients : Fin k → F) (x : F) : F :=
  secret + ∑ i, coefficients i * x ^ (i.val + 1)

omit [DecidableEq F] in
/-- The shares are points of a polynomial with the secret for its value at zero. -/
theorem exists_polynomial_deal {k : ℕ} (secret : F) (c : Fin k → F) :
    ∃ p : F[X], p.degree < (k + 1 : ℕ) ∧ p.eval 0 = secret ∧ ∀ x, p.eval x = deal secret c x := by
  refine ⟨C secret + ∑ i, C (c i) * X ^ (i.val + 1), ?_, ?_, ?_⟩
  · refine (degree_add_le _ _).trans_lt (max_lt ?_ ?_)
    · exact degree_C_le.trans_lt (by exact_mod_cast k.succ_pos)
    · refine (degree_sum_le _ _).trans_lt ((Finset.sup_lt_iff (WithBot.bot_lt_coe _)).mpr ?_)
      intro i _
      refine (degree_C_mul_X_pow_le _ _).trans_lt ?_
      exact_mod_cast Nat.succ_lt_succ i.isLt
  · simp [eval_finsetSum]
  · intro x
    simp [eval_finsetSum, deal]

omit [DecidableEq F] in
theorem deal_sub {k : ℕ} (secret secret' : F) (c c' : Fin k → F) (x : F) :
    deal (secret - secret') (c - c') x = deal secret c x - deal secret' c' x := by
  simp only [deal, Pi.sub_apply, sub_mul, Finset.sum_sub_distrib]
  ring

omit [DecidableEq F] in
/-- Coefficients that change the secret by `difference` and none of the shares at the nodes. -/
theorem exists_mask {k : ℕ} (difference : F) {nodes : Finset F} (few : nodes.card ≤ k)
    (nonzero : 0 ∉ nodes) : ∃ mask : Fin k → F, ∀ x ∈ nodes, deal difference mask x = 0 := by
  let p : F[X] := ∏ node ∈ nodes, (1 - C node⁻¹ * X)
  have degree : p.natDegree < k + 1 := by
    have factor : ∀ node ∈ nodes, (1 - C node⁻¹ * X : F[X]).natDegree ≤ 1 := by
      intro node _
      compute_degree
    have product : p.natDegree ≤ nodes.card * 1 :=
      (natDegree_prod_le ..).trans (Finset.sum_le_card_nsmul _ _ _ factor)
    omega
  have constant : p.coeff 0 = 1 := by
    rw [coeff_zero_eq_eval_zero, eval_prod]
    simp
  have dealt (x : F) : deal difference (fun i : Fin k => difference * p.coeff (i + 1)) x =
      difference * p.eval x := by
    rw [eval_eq_sum_range' degree, Finset.sum_range_succ', constant, deal,
      Fin.sum_univ_eq_sum_range fun i => difference * p.coeff (i + 1) * x ^ (i + 1)]
    simp only [mul_assoc, ← Finset.mul_sum]
    ring
  refine ⟨fun i => difference * p.coeff (i + 1), ?_⟩
  intro x mem
  have vanishes : p.eval x = 0 := by
    rw [eval_prod]
    apply Finset.prod_eq_zero mem
    have unit : x ≠ 0 := fun zero => nonzero (zero ▸ mem)
    simp [unit]
  rw [dealt, vanishes, mul_zero]

omit [DecidableEq F] in
/-- What is observed of no more shares than there are coefficients is observed for as many
coefficients of one secret as of any other. -/
theorem card_observed_eq {k : ℕ} (secret secret' : F) (nodes : Finset F) (few : nodes.card ≤ k)
    (nonzero : 0 ∉ nodes) (observed : (F → F) → Prop)
    (determined : ∀ f g, (∀ x ∈ nodes, f x = g x) → (observed f ↔ observed g)) :
    Nat.card {c : Fin k → F // observed (deal secret c)} =
      Nat.card {c : Fin k → F // observed (deal secret' c)} := by
  obtain ⟨mask, vanishes⟩ := exists_mask (secret - secret') few nonzero
  refine Nat.card_congr ((Equiv.subRight mask).subtypeEquiv ?_)
  intro c
  apply determined
  intro x mem
  have same := deal_sub secret (secret - secret') c mask x
  rw [sub_sub_cancel, vanishes x mem, sub_zero] at same
  exact same.symm

end Sharing
