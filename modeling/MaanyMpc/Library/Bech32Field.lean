import MaanyMpc.Library.Bech32
import MaanyMpc.Library.BinaryPolynomial
import MaanyMpc.Library.PolynomialRegister

/-! # The checksum of Bech32 as a remainder

The symbols of five bits are the elements of a field, and the register holds the remainder of its
values modulo the generator, the highest coefficient first. -/

namespace Bech32

open Polynomial

/-! ## The field of 32 elements -/

noncomputable def fieldModulus : (ZMod 2)[X] := X ^ 5 + X ^ 3 + 1

/-- `GF(2)[a] / (a ^ 5 + a ^ 3 + 1)`. -/
abbrev GF32 := AdjoinRoot fieldModulus

theorem natDegree_fieldModulus : fieldModulus.natDegree = 5 := by
  unfold fieldModulus
  compute_degree!

theorem monic_fieldModulus : fieldModulus.Monic := by
  unfold fieldModulus
  monicity!

theorem poly_fieldModulus : BinaryPolynomial.poly 0b101001 = fieldModulus := by
  have size : Nat.size 0b101001 = 6 := by decide
  simp only [BinaryPolynomial.poly, size, Finset.sum_range_succ, Finset.range_zero,
    Finset.sum_empty, fieldModulus]
  simp [show Nat.testBit 41 0 = true by decide, show Nat.testBit 41 1 = false by decide,
    show Nat.testBit 41 2 = false by decide, show Nat.testBit 41 3 = true by decide,
    show Nat.testBit 41 4 = false by decide, show Nat.testBit 41 5 = true by decide]
  ring

/-- What a divisor leaves over is of no lower degree. -/
theorem natDegree_le_of_rest {f q h r : (ZMod 2)[X]} (divides : q ∣ f) (division : f = q * h + r)
    (nonzero : r ≠ 0) : q.natDegree ≤ r.natDegree := by
  refine natDegree_le_of_dvd ?_ nonzero
  rw [division] at divides
  exact (dvd_add_right (dvd_mul_right q h)).mp divides

/-- Each of the six polynomials of degree one or two leaves a rest. -/
theorem not_dvd_fieldModulus {q : (ZMod 2)[X]} (monic : q.Monic)
    (degree : q.natDegree ∈ Finset.Ioc 0 2) : ¬ q ∣ fieldModulus := by
  intro divides
  have two : (2 : (ZMod 2)[X]) = 0 := CharTwo.two_eq_zero
  have bit (a : ZMod 2) : a = 0 ∨ a = 1 := by
    revert a
    decide
  obtain ⟨positive, small⟩ := Finset.mem_Ioc.mp degree
  have one (h : (ZMod 2)[X]) (division : fieldModulus = q * h + 1) : False := by
    have le := natDegree_le_of_rest divides division one_ne_zero
    rw [natDegree_one] at le
    omega
  have sum := monic.as_sum
  obtain line | square : q.natDegree = 1 ∨ q.natDegree = 2 := by omega
  · rw [line, Finset.sum_range_one, pow_one, pow_zero, mul_one] at sum
    obtain low | low := bit (q.coeff 0) <;> rw [low] at sum
    · apply one (X ^ 4 + X ^ 2)
      rw [sum, fieldModulus, C_0]
      ring
    · apply one (X ^ 4 + X ^ 3)
      rw [sum, fieldModulus, C_1]
      linear_combination (-X ^ 4) * two
  · rw [square, Finset.sum_range_succ, Finset.sum_range_one, pow_zero, mul_one, pow_one] at sum
    obtain low | low := bit (q.coeff 0) <;> obtain mid | mid := bit (q.coeff 1) <;>
      rw [low, mid] at sum
    · apply one (X ^ 3 + X)
      rw [sum, fieldModulus, C_0]
      ring
    · apply one (X ^ 3 + X ^ 2)
      rw [sum, fieldModulus, C_0, C_1]
      linear_combination (-X ^ 4) * two
    · apply one (X ^ 3)
      rw [sum, fieldModulus, C_0, C_1]
      ring
    · have division : fieldModulus = q * (X ^ 3 + X ^ 2 + X) + (X + C 1) := by
        rw [sum, fieldModulus, C_1]
        linear_combination (-X ^ 4 - X ^ 3 - X ^ 2 - X) * two
      have le := natDegree_le_of_rest divides division (X_add_C_ne_zero 1)
      rw [natDegree_X_add_C] at le
      omega

theorem irreducible_fieldModulus : Irreducible fieldModulus := by
  have nontrivial : fieldModulus ≠ 1 := by
    intro one
    have degree := natDegree_fieldModulus
    rw [one, natDegree_one] at degree
    cases degree
  rw [monic_fieldModulus.irreducible_iff_lt_natDegree_lt nontrivial, natDegree_fieldModulus]
  exact fun q monic degree => not_dvd_fieldModulus monic degree

instance : Fact (Irreducible fieldModulus) := ⟨irreducible_fieldModulus⟩

/-- The element that a symbol stands for. -/
noncomputable def element (n : ℕ) : GF32 := BinaryPolynomial.element fieldModulus n

theorem element_bijective : Function.Bijective fun n : Fin 32 => element n :=
  BinaryPolynomial.element_bijective (w := 5) monic_fieldModulus natDegree_fieldModulus

theorem isField_card : IsField GF32 ∧ Nat.card GF32 = 32 := by
  refine ⟨Field.toIsField GF32, ?_⟩
  rw [← Nat.card_eq_of_bijective _ element_bijective, Nat.card_fin]

/-- The symbol of an element. -/
noncomputable def code (a : GF32) : ℕ := (Equiv.ofBijective _ element_bijective).symm a

theorem code_element {n : ℕ} (h : n < 32) : code (element n) = n :=
  congrArg Fin.val ((Equiv.ofBijective _ element_bijective).symm_apply_apply ⟨n, h⟩)

theorem element_xor (a b : ℕ) : element (a ^^^ b) = element a + element b :=
  BinaryPolynomial.element_xor a b

theorem element_mul {u : ℕ} (h : u < 32) (v : ℕ) :
    element (BinaryPolynomial.mul 0b101001 5 5 u v) = element u * element v :=
  BinaryPolynomial.element_mul poly_fieldModulus 5 h v

/-! ## The generator -/

noncomputable def generator : GF32[X] :=
  X ^ 6 + C (element 29) * X ^ 5 + C (element 22) * X ^ 4 + C (element 20) * X ^ 3 +
    C (element 21) * X ^ 2 + C (element 29) * X + C (element 18)

theorem natDegree_generator : generator.natDegree = 6 := by
  unfold generator
  compute_degree!

theorem natDegree_generator_pos : 0 < generator.natDegree := by
  rw [natDegree_generator]
  decide

theorem monic_generator : generator.Monic := by
  unfold generator
  monicity!

/-- The symbols of the generator below its leading one. -/
def generatorSymbols : List ℕ := [18, 29, 21, 20, 22, 29]

theorem coeff_generator {i : ℕ} (h : i < 6) :
    generator.coeff i = element (generatorSymbols.getD i 0) := by
  interval_cases i <;>
    simp [generator, generatorSymbols, coeff_X, coeff_X_pow, coeff_C]

/-! ## Registers as polynomials -/

/-- The symbol at place `i`, from the lowest one. -/
def symbolAt (chk i : ℕ) : ℕ := chk >>> (5 * i) &&& 31

noncomputable def unpack (chk : ℕ) : GF32[X] :=
  ∑ i ∈ Finset.range 6, C (element (symbolAt chk i)) * X ^ i

/-- Six symbols of five bits, the highest coefficient first. -/
noncomputable def pack (p : GF32[X]) : ℕ := ∑ i ∈ Finset.range 6, code (p.coeff i) * 32 ^ i

theorem symbolAt_eq (chk i : ℕ) : symbolAt chk i = chk / 32 ^ i % 32 := by
  rw [symbolAt, show 31 = 2 ^ 5 - 1 from rfl, Nat.and_two_pow_sub_one_eq_mod,
    Nat.shiftRight_eq_div_pow, pow_mul]
  rfl

theorem symbolAt_lt (chk i : ℕ) : symbolAt chk i < 32 := by
  rw [symbolAt_eq]
  exact Nat.mod_lt _ (by decide)

theorem symbolAt_xor (a b i : ℕ) : symbolAt (a ^^^ b) i = symbolAt a i ^^^ symbolAt b i := by
  rw [symbolAt, Nat.shiftRight_xor_distrib, Nat.and_xor_distrib_right]
  rfl

theorem coeff_unpack (chk i : ℕ) :
    (unpack chk).coeff i = if i < 6 then element (symbolAt chk i) else 0 := by
  simp only [unpack, finsetSum_coeff, coeff_C_mul_X_pow, Finset.sum_ite_eq, Finset.mem_range]

theorem degree_unpack_lt (chk : ℕ) : (unpack chk).degree < generator.degree := by
  rw [degree_eq_natDegree monic_generator.ne_zero, natDegree_generator, degree_lt_iff_coeff_zero]
  intro i high
  rw [coeff_unpack, if_neg (by omega)]

theorem pack_unpack {chk : ℕ} (h : chk < 2 ^ 30) : pack (unpack chk) = chk := by
  have coefficient (i : ℕ) (small : i < 6) : code ((unpack chk).coeff i) = chk / 32 ^ i % 32 := by
    rw [coeff_unpack, if_pos small, code_element (symbolAt_lt chk i), symbolAt_eq]
  rw [pack, Finset.sum_congr rfl fun i mem => by rw [coefficient i (Finset.mem_range.mp mem)]]
  simp only [Finset.sum_range_succ, Finset.range_zero, Finset.sum_empty]
  omega

/-! ## Steps of the register -/

/-- The constants are the multiples of the generator. -/
theorem symbolAt_taps {top i : ℕ} (h : top < 32) (place : i < 6) :
    symbolAt (taps top) i = BinaryPolynomial.mul 0b101001 5 5 top (generatorSymbols.getD i 0) := by
  have table : ∀ (top : Fin 32) (i : Fin 6), symbolAt (taps top) i =
      BinaryPolynomial.mul 0b101001 5 5 top (generatorSymbols.getD i 0) := by decide
  exact table ⟨top, h⟩ ⟨i, place⟩

theorem symbolAt_shift_zero (chk : ℕ) :
    symbolAt (shift chk) 0 = symbolAt (taps (chk >>> 25)) 0 := by
  have low : symbolAt ((chk &&& 0x1ffffff) <<< 5) 0 = 0 := by
    rw [symbolAt_eq, Nat.shiftLeft_eq]
    omega
  rw [shift, symbolAt_xor, low, Nat.zero_xor]

theorem symbolAt_shift_succ {chk i : ℕ} (place : i < 5) :
    symbolAt (shift chk) (i + 1) = symbolAt chk i ^^^ symbolAt (taps (chk >>> 25)) (i + 1) := by
  have high : symbolAt ((chk &&& 0x1ffffff) <<< 5) (i + 1) = symbolAt chk i := by
    rw [symbolAt_eq, symbolAt_eq, low_eq_mod, Nat.shiftLeft_eq]
    interval_cases i <;> omega
  rw [shift, symbolAt_xor, high]

theorem symbolAt_word {v : ℕ} (h : v < 32) (i : ℕ) :
    symbolAt v i = if i = 0 then v else 0 := by
  rw [symbolAt_eq]
  cases i with
  | zero => rw [pow_zero, Nat.div_one, Nat.mod_eq_of_lt h, if_pos rfl]
  | succ i =>
      have small : v < 32 ^ (i + 1) := by
        rw [pow_succ]
        have positive := Nat.pow_pos (n := i) (show 0 < 32 by decide)
        nlinarith
      rw [Nat.div_eq_of_lt small, Nat.zero_mod, if_neg (Nat.succ_ne_zero i)]

/-- A step of the register is a step of the remainder. -/
theorem unpack_step {chk v : ℕ} (h : chk < 2 ^ 30) (word : v < 32) :
    unpack (shift chk ^^^ v) = PolynomialRegister.step generator (unpack chk) (element v) := by
  have top : chk >>> 25 < 32 := shiftRight_lt h
  have highest : (unpack chk).coeff 5 = element (chk >>> 25) := by
    have last : symbolAt chk 5 = chk >>> 25 := by
      rw [symbolAt_eq, Nat.shiftRight_eq_div_pow]
      omega
    rw [coeff_unpack, if_pos (by decide), last]
  ext i
  by_cases place : i < 6
  · have multiple : element (symbolAt (taps (chk >>> 25)) i) =
        element (chk >>> 25) * generator.coeff i := by
      rw [symbolAt_taps top place, element_mul top, coeff_generator place]
    rw [coeff_unpack, if_pos place, symbolAt_xor, symbolAt_word word, element_xor,
      PolynomialRegister.step, natDegree_generator, coeff_sub, coeff_C_mul, highest, ← multiple,
      ZModModule.sub_eq_add, coeff_add]
    cases i with
    | zero =>
        rw [if_pos rfl, symbolAt_shift_zero, mul_coeff_zero, coeff_X_zero, zero_mul, zero_add,
          coeff_C_zero, add_comm]
    | succ i =>
        rw [if_neg (Nat.succ_ne_zero i), symbolAt_shift_succ (by omega), element_xor, coeff_X_mul,
          coeff_C_succ, coeff_unpack, if_pos (by omega), add_right_comm]
        rfl
  · have small := PolynomialRegister.degree_step_lt monic_generator natDegree_generator_pos
      (degree_unpack_lt chk) (element v)
    rw [degree_eq_natDegree monic_generator.ne_zero, natDegree_generator,
      degree_lt_iff_coeff_zero] at small
    rw [coeff_unpack, if_neg place, small i (Nat.not_lt.mp place)]

/-- The register holds the remainder of the values. -/
theorem unpack_run {chk : ℕ} (h : chk < 2 ^ 30) {values : List ℕ} (words : ∀ v ∈ values, v < 32) :
    unpack (Register.run shift chk values) =
      (values.map element).foldl (PolynomialRegister.step generator) (unpack chk) := by
  induction values generalizing chk with
  | nil => rfl
  | cons v values ih =>
      obtain ⟨first, rest⟩ := List.forall_mem_cons.mp words
      have next : shift chk ^^^ v < 2 ^ 30 :=
        Nat.xor_lt_two_pow (shift_regular.lt chk h) (by omega)
      rw [Register.run_cons, ih next rest, unpack_step h first, List.map_cons, List.foldl_cons]

theorem unpack_one : unpack 1 = 1 %ₘ generator := by
  have small : (1 : GF32[X]).degree < generator.degree := by
    rw [degree_one, degree_eq_natDegree monic_generator.ne_zero, natDegree_generator]
    decide
  rw [(modByMonic_eq_self_iff monic_generator).mpr small]
  ext i
  rw [coeff_unpack, symbolAt_word (by decide), coeff_one]
  cases i with
  | zero => exact BinaryPolynomial.element_one
  | succ i => simp [element]

/-- The checksum is the remainder of the values behind a one. -/
theorem polymod_eq_pack {α : Type*} (f : α → ℕ) {values : List α}
    (words : ∀ v ∈ values, f v < 32) :
    polymod (values.map f) = pack ((X ^ values.length + ∑ i : Fin values.length,
      C (element (f (values.get i))) * X ^ (values.length - 1 - i.val)) %ₘ generator) := by
  have small : ∀ v ∈ values.map f, v < 32 := List.forall_mem_map.mpr words
  have run := unpack_run (show 1 < 2 ^ 30 by decide) small
  rw [unpack_one, PolynomialRegister.foldl_step monic_generator natDegree_generator_pos,
    List.map_map, PolynomialRegister.foldl_append, mul_one] at run
  calc
    polymod (values.map f) = pack (unpack (polymod (values.map f))) :=
      (pack_unpack (polymod_lt small)).symm
    _ = _ := congrArg pack run

end Bech32
