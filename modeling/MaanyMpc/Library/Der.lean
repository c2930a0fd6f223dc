import MaanyMpc.Library.BigEndian
import Mathlib.Data.Nat.Size

/-! # A pair of numbers in DER

A sequence of two integers, both of them not negative, in lengths of one byte. An integer has as
many bytes as it needs for its bits and a sign. -/

namespace Der

/-- A tag, a length and a content of less than 128 bytes. -/
def element (tag : UInt8) (content : List UInt8) : List UInt8 :=
  tag :: UInt8.ofNat content.length :: content

def integerTag : UInt8 := 0x02

def sequenceTag : UInt8 := 0x30

/-- The number of bytes of an integer. -/
def width (n : ℕ) : ℕ := n.size / 8 + 1

def integer (n : ℕ) : List UInt8 := element integerTag (BigEndian.encode (width n) n)

def pair (r s : ℕ) : List UInt8 := element sequenceTag (integer r ++ integer s)

/-! ## Parsing -/

/-- The content of the first element, and what follows it. -/
def element? (tag : UInt8) : List UInt8 → Option (List UInt8 × List UInt8)
  | first :: length :: rest =>
    if first = tag ∧ length < 128 ∧ length.toNat ≤ rest.length then
      some (rest.take length.toNat, rest.drop length.toNat)
    else none
  | _ => none

def integer? (bytes : List UInt8) : Option (ℕ × List UInt8) := do
  let (content, rest) ← element? integerTag bytes
  let n := BigEndian.decode content
  if content = BigEndian.encode (width n) n then some (n, rest) else none

def pair? (bytes : List UInt8) : Option (ℕ × ℕ) := do
  let (content, behind) ← element? sequenceTag bytes
  let (r, rest) ← integer? content
  let (s, left) ← integer? rest
  if behind = [] ∧ left = [] then some (r, s) else none

/-! ## Round trips -/

theorem element?_element (tag : UInt8) {content : List UInt8} (short : content.length < 128)
    (rest : List UInt8) : element? tag (element tag content ++ rest) = some (content, rest) := by
  have length : (UInt8.ofNat content.length).toNat = content.length :=
    UInt8.toNat_ofNat_of_lt' (by
      have bound : 128 < UInt8.size := by decide
      omega)
  have small : UInt8.ofNat content.length < 128 := by
    rw [UInt8.lt_iff_toNat_lt, length]
    exact short
  change element? tag (tag :: UInt8.ofNat content.length :: (content ++ rest)) = _
  rw [element?, length, if_pos ⟨rfl, small, by simp⟩, List.take_left, List.drop_left]

theorem lt_width (n : ℕ) : n < 256 ^ width n := by
  refine Nat.lt_of_lt_of_le n.lt_size_self ?_
  rw [show 256 = 2 ^ 8 from rfl, ← pow_mul, width]
  exact Nat.pow_le_pow_right (by decide) (by omega)

theorem integer?_integer {n : ℕ} (short : width n < 128) (rest : List UInt8) :
    integer? (integer n ++ rest) = some (n, rest) := by
  have fits : (BigEndian.encode (width n) n).length < 128 := by rwa [BigEndian.length_encode]
  have read := element?_element integerTag fits rest
  simp only [integer?, integer, read, Option.bind_eq_bind, Option.bind_some,
    BigEndian.decode_encode (lt_width n), if_true]

theorem length_integer (n : ℕ) : (integer n).length = width n + 2 := by
  simp [integer, element]

theorem pair?_pair {r s : ℕ} (short : width r + width s + 4 < 128) :
    pair? (pair r s) = some (r, s) := by
  have length : (integer r ++ integer s).length < 128 := by
    rw [List.length_append, length_integer, length_integer]
    omega
  have content := element?_element sequenceTag length []
  have first := integer?_integer (show width r < 128 by omega) (integer s)
  have second := integer?_integer (show width s < 128 by omega) []
  rw [List.append_nil] at content second
  simp only [pair?, pair, content, first, second, Option.bind_eq_bind, Option.bind_some,
    and_self, if_true]

theorem width_le {n k : ℕ} (h : n < 256 ^ k) : width n ≤ k + 1 := by
  have size : n.size ≤ 8 * k := by
    rw [Nat.size_le, pow_mul]
    exact h
  rw [width]
  omega

theorem pair_ne_nil (r s : ℕ) : pair r s ≠ [] := List.cons_ne_nil _ _

end Der
