import Mathlib.Data.Nat.Bitwise
import Mathlib.Tactic.Ring

/-! # Numbers as lists of bits

The highest bit comes first. -/

namespace Bits

/-- The lowest `width` bits. -/
def bits : ℕ → ℕ → List Bool
  | 0, _ => []
  | width + 1, n => n.testBit width :: bits width n

def value (bs : List Bool) : ℕ := bs.foldl (fun n b => 2 * n + b.toNat) 0

@[simp] theorem length_bits (width n : ℕ) : (bits width n).length = width := by
  induction width with
  | zero => rfl
  | succ width ih => rw [bits, List.length_cons, ih]

theorem length_flatMap {α : Type*} (width : ℕ) (f : α → ℕ) (xs : List α) :
    (xs.flatMap fun x => bits width (f x)).length = width * xs.length := by
  simp only [List.length_flatMap, length_bits, List.map_const', List.sum_replicate_nat,
    Nat.mul_comm]

theorem bits_congr {width m n : ℕ} (h : ∀ i < width, m.testBit i = n.testBit i) :
    bits width m = bits width n := by
  induction width with
  | zero => rfl
  | succ width ih =>
      rw [bits, bits, h width (by omega), ih fun i hi => h i (by omega)]

theorem bits_zero (width : ℕ) : ∀ b ∈ bits width 0, b = false := by
  induction width with
  | zero => simp [bits]
  | succ width ih => exact List.forall_mem_cons.mpr ⟨Nat.zero_testBit width, ih⟩

/-- The high bits and the low ones. -/
theorem bits_add (high low n : ℕ) :
    bits (high + low) n = bits high (n >>> low) ++ bits low n := by
  induction high with
  | zero => simp [bits]
  | succ high ih =>
      rw [Nat.succ_add, bits, ih, bits, Nat.testBit_shiftRight, Nat.add_comm low high,
        List.cons_append]

theorem bits_of_mod_eq {width m n : ℕ} (h : m % 2 ^ width = n % 2 ^ width) :
    bits width m = bits width n := by
  refine bits_congr fun i hi => ?_
  have bit := congrArg (·.testBit i) h
  simpa [Nat.testBit_mod_two_pow, hi] using bit

/-- The low bits of a sum are those of its last part. -/
theorem bits_mul_add (high low m : ℕ) {n : ℕ} (h : n < 2 ^ low) :
    bits (high + low) (m * 2 ^ low + n) = bits high m ++ bits low n := by
  have quotient : (m * 2 ^ low + n) >>> low = m := by
    rw [Nat.shiftRight_eq_div_pow, Nat.mul_comm, Nat.mul_add_div (Nat.two_pow_pos low),
      Nat.div_eq_of_lt h, Nat.add_zero]
  rw [bits_add, quotient, bits_of_mod_eq (m := m * 2 ^ low + n) (n := n) (by simp)]

theorem foldl_value (bs : List Bool) (n : ℕ) :
    bs.foldl (fun n b => 2 * n + b.toNat) n = 2 ^ bs.length * n + value bs := by
  induction bs generalizing n with
  | nil => simp [value]
  | cons b bs ih =>
      rw [value, List.foldl_cons, List.foldl_cons, ih, ih (2 * 0 + b.toNat), List.length_cons,
        Nat.pow_succ]
      ring

theorem value_cons (b : Bool) (bs : List Bool) :
    value (b :: bs) = 2 ^ bs.length * b.toNat + value bs := by
  rw [value, List.foldl_cons, foldl_value, Nat.mul_zero, Nat.zero_add]

theorem value_lt (bs : List Bool) : value bs < 2 ^ bs.length := by
  induction bs with
  | nil => simp [value]
  | cons b bs ih =>
      rw [value_cons, List.length_cons, Nat.pow_succ]
      cases b <;> simp <;> omega

theorem value_bits (width n : ℕ) : value (bits width n) = n % 2 ^ width := by
  induction width with
  | zero => simp [bits, value, Nat.mod_one]
  | succ width ih =>
      rw [bits, value_cons, ih, length_bits, Nat.mod_pow_succ, Nat.toNat_testBit, Nat.add_comm]

theorem value_eq_zero {bs : List Bool} : value bs = 0 ↔ ∀ b ∈ bs, b = false := by
  induction bs with
  | nil => simp [value]
  | cons b bs ih => simp [value_cons, ih]

/-- The bits are clear. -/
theorem bits_clear {width n : ℕ} : (∀ b ∈ bits width n, b = false) ↔ n % 2 ^ width = 0 := by
  rw [← value_eq_zero, value_bits]

/-! ## Groups -/

/-- Groups of `size` bits, and what is left of them. -/
def groups (size : ℕ) (bs : List Bool) : List (List Bool) × List Bool :=
  if size = 0 ∨ bs.length < size then ([], bs)
  else
    let rest := groups size (bs.drop size)
    (bs.take size :: rest.1, rest.2)
termination_by bs.length
decreasing_by
  rw [List.length_drop]
  omega

/-- The groups of bits that were put together of groups. -/
theorem groups_flatten {size : ℕ} {gs : List (List Bool)}
    (full : ∀ g ∈ gs, g.length = size) {left : List Bool} (short : left.length < size) :
    groups size (gs.flatten ++ left) = (gs, left) := by
  induction gs with
  | nil =>
      rw [groups, List.flatten_nil, List.nil_append, if_pos (.inr short)]
  | cons g gs ih =>
      obtain ⟨first, others⟩ := List.forall_mem_cons.mp full
      have long : ¬ (size = 0 ∨ ((g :: gs).flatten ++ left).length < size) := by
        rw [List.flatten_cons, List.length_append, List.length_append]
        omega
      rw [groups, if_neg long, List.flatten_cons, List.append_assoc, List.take_left' first,
        List.drop_left' first, ih others]

end Bits
