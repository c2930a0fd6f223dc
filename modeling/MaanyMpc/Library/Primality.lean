import Mathlib.NumberTheory.LucasPrimality
import Mathlib.Data.List.Prime

/-! # Lucas's test, as a computation

A number is prime if some base has full order modulo it. The test below checks that for a
given base and a given factorization, with powers taken by repeated squaring, so that it
can be evaluated on numbers of a few hundred bits. -/

namespace Primality

/-- Multiplies `acc` by `base ^ e` modulo `m`, one binary digit of `e` for each unit of fuel. -/
def mulPowMod (m : ℕ) : ℕ → ℕ → ℕ → ℕ → ℕ
  | 0, acc, _, _ => acc
  | fuel + 1, acc, base, e =>
    mulPowMod m fuel (if e % 2 = 1 then acc * base % m else acc) (base * base % m) (e / 2)

theorem mulPowMod_modEq (m : ℕ) {fuel e : ℕ} (acc base : ℕ) (h : e < 2 ^ fuel) :
    mulPowMod m fuel acc base e ≡ acc * base ^ e [MOD m] := by
  induction fuel generalizing acc base e with
  | zero =>
      obtain rfl : e = 0 := by omega
      simp [mulPowMod, Nat.ModEq]
  | succ fuel ih =>
      have half : e / 2 < 2 ^ fuel := by
        rw [pow_succ] at h
        omega
      have square : (base * base % m) ^ (e / 2) ≡ base ^ (2 * (e / 2)) [MOD m] := by
        rw [pow_mul, sq]
        exact (Nat.mod_modEq _ _).pow _
      have step := ih (if e % 2 = 1 then acc * base % m else acc) (base * base % m) half
      refine step.trans ?_
      by_cases odd : e % 2 = 1
      · have digits : e = 2 * (e / 2) + 1 := by omega
        have first : acc * base % m ≡ acc * base [MOD m] := Nat.mod_modEq _ _
        rw [if_pos odd]
        calc acc * base % m * (base * base % m) ^ (e / 2)
            ≡ acc * base * base ^ (2 * (e / 2)) [MOD m] := first.mul square
          _ = acc * base ^ e := by
            conv_rhs => rw [digits, pow_succ]
            ring
      · have digits : e = 2 * (e / 2) := by omega
        rw [if_neg odd]
        calc acc * (base * base % m) ^ (e / 2)
            ≡ acc * base ^ (2 * (e / 2)) [MOD m] := square.mul_left acc
          _ = acc * base ^ e := by rw [← digits]

/-- `base ^ e` is one modulo `m`. -/
def powIsOne (m base e : ℕ) : Bool := mulPowMod m (Nat.log2 e + 1) 1 base e % m == 1 % m

theorem powIsOne_iff (m base e : ℕ) : powIsOne m base e = true ↔ (base : ZMod m) ^ e = 1 := by
  have power := mulPowMod_modEq m 1 base (Nat.lt_log2_self (n := e))
  rw [one_mul] at power
  rw [powIsOne, beq_iff_eq]
  calc mulPowMod m (Nat.log2 e + 1) 1 base e % m = 1 % m
      ↔ base ^ e ≡ 1 [MOD m] := ⟨fun one => power.symm.trans one, fun one => power.trans one⟩
    _ ↔ (base : ZMod m) ^ e = 1 := by
      rw [← ZMod.natCast_eq_natCast_iff]
      push_cast
      rfl

/-- Lucas's test of `p` with a base and the prime factors of `p - 1`. -/
def lucasTest (p base : ℕ) (factors : List ℕ) : Bool :=
  factors.prod == p - 1 && powIsOne p base (p - 1) &&
    factors.all fun r => !powIsOne p base ((p - 1) / r)

/-- The factors come in two lists: those that are seen to be prime by trial division, and
those that have been tested before. -/
theorem prime_of_lucasTest {p : ℕ} (base : ℕ) (small large : List ℕ)
    (hsmall : ∀ r ∈ small, r.Prime) (hlarge : ∀ r ∈ large, r.Prime)
    (h : lucasTest p base (small ++ large) = true) : p.Prime := by
  simp only [lucasTest, Bool.and_eq_true, beq_iff_eq, List.all_eq_true, Bool.not_eq_true'] at h
  obtain ⟨⟨product, full⟩, proper⟩ := h
  have primes : ∀ r ∈ small ++ large, r.Prime := by
    intro r hr
    rcases List.mem_append.mp hr with hr | hr
    · exact hsmall r hr
    · exact hlarge r hr
  apply lucas_primality p base ((powIsOne_iff ..).mp full)
  intro r hr dvd
  have member : r ∈ small ++ large := by
    rw [← product] at dvd
    obtain ⟨s, hs, hrs⟩ := (Nat.Prime.prime hr).dvd_prod_iff.mp dvd
    rwa [(Nat.prime_dvd_prime_iff_eq hr (primes s hs)).mp hrs]
  intro one
  have false := proper r member
  rw [(powIsOne_iff ..).mpr one] at false
  cases false

end Primality
