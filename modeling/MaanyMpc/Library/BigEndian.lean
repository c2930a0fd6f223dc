import Mathlib.Data.UInt
import Mathlib.Tactic.Ring

/-! # Fixed-width big-endian numbers -/

namespace BigEndian

/-- The last `width` base-256 digits, the most significant first. -/
def encode : ℕ → ℕ → List UInt8
  | 0, _ => []
  | width + 1, n => encode width (n / 256) ++ [UInt8.ofNat n]

def decode (bytes : List UInt8) : ℕ :=
  bytes.foldl (fun acc byte => acc * 256 + byte.toNat) 0

@[simp] theorem length_encode (width n : ℕ) : (encode width n).length = width := by
  induction width generalizing n with
  | zero => rfl
  | succ width ih => simp [encode, ih]

@[simp] theorem decode_append_singleton (bytes : List UInt8) (byte : UInt8) :
    decode (bytes ++ [byte]) = decode bytes * 256 + byte.toNat := by
  simp [decode]

theorem decode_encode {width n : ℕ} (h : n < 256 ^ width) : decode (encode width n) = n := by
  induction width generalizing n with
  | zero =>
      obtain rfl : n = 0 := by omega
      rfl
  | succ width ih =>
      have quotient : n / 256 < 256 ^ width := by
        rw [pow_succ] at h
        omega
      have digit : (UInt8.ofNat n).toNat = n % 256 := by simp
      rw [encode, decode_append_singleton, ih quotient, digit]
      omega

/-- The same digits as a vector. -/
def vector (width n : ℕ) : Vector UInt8 width := ⟨(encode width n).toArray, by simp⟩

@[simp] theorem toList_vector (width n : ℕ) : (vector width n).toList = encode width n := rfl

theorem decode_lt (bytes : List UInt8) : decode bytes < 256 ^ bytes.length := by
  induction bytes using List.reverseRecOn with
  | nil => simp [decode]
  | append_singleton bytes byte ih =>
      have digit : byte.toNat < 256 := byte.toNat_lt
      rw [decode_append_singleton, List.length_append, List.length_singleton, pow_succ]
      omega

end BigEndian
