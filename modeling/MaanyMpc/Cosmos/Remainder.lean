import MaanyMpc.Cosmos.Address
import MaanyMpc.Library.Bech32Field

/-! # The checksum as a remainder

`polymod` on signed numbers of 32 bits. Its register stays below `2 ^ 30`, so the sign is never
reached and the result is the remainder that the format takes. -/

namespace MaanyMpc

open Polynomial

/-! ## The values of the register -/

/-- The values of `chk` in one round of the outer loop. -/
def polymodStepTrace (chk value : JsInt) : List JsInt :=
  let top := sar chk 25
  let chk := shl (chk &&& 0x1ffffff) 5 ^^^ value
  generators.zipIdx.scanl (fun chk g => if sar top g.2 &&& 1 = 1 then chk ^^^ g.1 else chk) chk

/-- The values of `chk` from the first one on. -/
def polymodTrace : JsInt → List JsInt → List JsInt
  | chk, [] => [chk]
  | chk, value :: values =>
    chk :: polymodStepTrace chk value ++ polymodTrace (polymodStep chk value) values

theorem polymodStepTrace_getLast (chk value : JsInt) :
    (polymodStepTrace chk value).getLast? = some (polymodStep chk value) :=
  List.getLast?_scanl

/-- The last value is what the loop returns. -/
theorem polymodTrace_getLast (chk : JsInt) (values : List JsInt) :
    (polymodTrace chk values).getLast? = some (values.foldl polymodStep chk) := by
  induction values generalizing chk with
  | nil => rfl
  | cons value values ih =>
      rw [polymodTrace, List.getLast?_append, ih]
      rfl

theorem scanl_select_lt (top : JsInt) {gs : List (JsInt × ℕ)}
    (small : ∀ g ∈ gs, g.1.toNat < 2 ^ 30) {chk : JsInt} (h : chk.toNat < 2 ^ 30) :
    ∀ c ∈ gs.scanl (fun chk g => if sar top g.2 &&& 1 = 1 then chk ^^^ g.1 else chk) chk,
      c.toNat < 2 ^ 30 := by
  induction gs generalizing chk with
  | nil =>
      rw [List.scanl_nil, List.forall_mem_singleton]
      exact h
  | cons g gs ih =>
      obtain ⟨first, rest⟩ := List.forall_mem_cons.mp small
      rw [List.scanl_cons, List.forall_mem_cons]
      refine ⟨h, ih rest ?_⟩
      split
      · rw [BitVec.toNat_xor]
        exact Nat.xor_lt_two_pow h first
      · exact h

theorem polymodStepTrace_lt (chk : JsInt) {value : JsInt} (word : value.toNat < 32) :
    ∀ c ∈ polymodStepTrace chk value, c.toNat < 2 ^ 30 := by
  apply scanl_select_lt
  · decide
  · rw [BitVec.toNat_xor, shl_low_toNat, Bech32.low_eq_mod, Nat.shiftLeft_eq]
    refine Nat.xor_lt_two_pow ?_ (by omega)
    omega

/-- The register keeps to 30 bits. -/
theorem polymodTrace_lt {values : List JsInt} (words : ∀ v ∈ values, v.toNat < 32) {chk : JsInt}
    (h : chk.toNat < 2 ^ 30) : ∀ c ∈ polymodTrace chk values, c.toNat < 2 ^ 30 := by
  induction values generalizing chk with
  | nil =>
      rw [polymodTrace, List.forall_mem_singleton]
      exact h
  | cons value values ih =>
      obtain ⟨first, rest⟩ := List.forall_mem_cons.mp words
      have round := polymodStepTrace_lt chk first
      have next := round _ (List.mem_of_getLast? (polymodStepTrace_getLast chk value))
      rw [polymodTrace, List.forall_mem_append, List.forall_mem_cons]
      exact ⟨⟨h, round⟩, ih rest next⟩

theorem toInt_of_lt {c : JsInt} (h : c.toNat < 2 ^ 30) : 0 ≤ c.toInt ∧ c.toInt < 2 ^ 30 := by
  rw [BitVec.toInt_eq_toNat_of_lt (by omega)]
  omega

/-! ## The remainder -/

/-- `polymod` is the remainder of the values behind a one, over the field of 32 elements. On the
way to it the register is never negative and never above 30 bits. -/
theorem polymod_remainder {values : List JsInt} (words : ∀ v ∈ values, v.toNat < 32) :
    (IsField Bech32.GF32 ∧ Nat.card Bech32.GF32 = 32) ∧
    (polymod values).toInt = Bech32.pack ((X ^ values.length + ∑ i : Fin values.length,
      C (Bech32.element (values.get i).toNat) * X ^ (values.length - 1 - i.val)) %ₘ
        Bech32.generator) ∧
    (polymodTrace 1 values).getLast? = some (polymod values) ∧
    ∀ c ∈ polymodTrace 1 values, 0 ≤ c.toInt ∧ c.toInt < 2 ^ 30 := by
  have bound := polymodTrace_lt words (show (1 : JsInt).toNat < 2 ^ 30 by decide)
  have last := polymodTrace_getLast 1 values
  refine ⟨Bech32.isField_card, ?_, last, fun c mem => toInt_of_lt (bound c mem)⟩
  have small := bound _ (List.mem_of_getLast? last)
  rw [← Bech32.polymod_eq_pack BitVec.toNat words, ← polymod_toNat words]
  refine BitVec.toInt_eq_toNat_of_lt ?_
  change (polymod values).toNat < 2 ^ 30 at small
  omega

theorem polymod_remainder_two : (polymod [1, 3]).toInt = Bech32.pack
    ((X ^ 2 + (C (Bech32.element 1) * X + C (Bech32.element 3))) %ₘ Bech32.generator) := by
  obtain ⟨_, remainder, _⟩ := polymod_remainder
    (show ∀ v ∈ ([1, 3] : List JsInt), v.toNat < 32 by simp)
  have sum : ∑ i : Fin 2, C (Bech32.element (([1, 3] : List JsInt).get i).toNat) *
      X ^ (2 - 1 - i.val) = C (Bech32.element 1) * X + C (Bech32.element 3) := by
    rw [Fin.sum_univ_two]
    change C (Bech32.element 1) * X ^ 1 + C (Bech32.element 3) * X ^ 0 = _
    rw [pow_one, pow_zero, mul_one]
  rw [← sum]
  exact remainder

end MaanyMpc
