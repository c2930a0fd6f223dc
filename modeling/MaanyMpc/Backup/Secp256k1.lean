import MaanyMpc.Library.Primality
import Mathlib.Tactic.NormNum.Prime

/-! # The order of secp256k1 -/

namespace MaanyMpc

/-- `curve_secp256k1.order()`. -/
def secp256k1Order : ℕ := 0xFFFFFFFFFFFFFFFFFFFFFFFFFFFFFFFEBAAEDCE6AF48A03BBFD25E8CD0364141

/-! The large prime factors of the order minus one, each after its own. -/

private theorem prime_297159362677 : Nat.Prime 297159362677 := by
  apply Primality.prime_of_lucasTest 2 [2, 2, 3, 3, 11, 461, 1627771] []
  · norm_num
  · simp
  · decide +kernel

private theorem prime_545358713 : Nat.Prime 545358713 := by
  apply Primality.prime_of_lucasTest 5 [2, 2, 2, 41, 59, 28181] []
  · norm_num
  · simp
  · decide +kernel

private theorem prime_29047611873442575647497758179 : Nat.Prime 29047611873442575647497758179 := by
  apply Primality.prime_of_lucasTest 2 [2, 293, 305873] [545358713, 297159362677]
  · norm_num
  · simp only [List.forall_mem_cons]
    exact ⟨prime_545358713, prime_297159362677, by simp⟩
  · decide +kernel

private theorem prime_341948486974166000522343609283189 :
    Nat.Prime 341948486974166000522343609283189 := by
  apply Primality.prime_of_lucasTest 2 [2, 2, 3, 3, 3, 109]
    [29047611873442575647497758179]
  · norm_num
  · simp only [List.forall_mem_cons]
    exact ⟨prime_29047611873442575647497758179, by simp⟩
  · decide +kernel

private theorem prime_174723607534414371449 : Nat.Prime 174723607534414371449 := by
  apply Primality.prime_of_lucasTest 3 [2, 2, 2, 17, 59, 4051, 120233, 44706919] []
  · norm_num
  · simp
  · decide +kernel

private theorem prime_107361793816595537 : Nat.Prime 107361793816595537 := by
  apply Primality.prime_of_lucasTest 3 [2, 2, 2, 2, 16699, 85831, 4681609] []
  · norm_num
  · simp
  · decide +kernel

theorem prime_secp256k1Order : secp256k1Order.Prime := by
  apply Primality.prime_of_lucasTest 7 [2, 2, 2, 2, 2, 2, 3, 149, 631]
    [107361793816595537, 174723607534414371449, 341948486974166000522343609283189]
  · norm_num
  · simp only [List.forall_mem_cons]
    exact ⟨prime_107361793816595537, prime_174723607534414371449,
      prime_341948486974166000522343609283189, by simp⟩
  · decide +kernel

instance : Fact secp256k1Order.Prime := ⟨prime_secp256k1Order⟩

end MaanyMpc
