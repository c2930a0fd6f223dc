import MaanyMpc.Bridge.Types

/-! # Bytes and strings of the coordinators

A string of well-formed Unicode is a `String`. -/

namespace MaanyMpc

def hexByte (byte : UInt8) : List Char :=
  [Nat.digitChar (byte.toNat / 16), Nat.digitChar (byte.toNat % 16)]

/-- `toHex` of coordinator-rn, and `toString('hex')` of a Node `Buffer`. -/
def toHex (bytes : Bytes) : String :=
  String.ofList (bytes.flatMap hexByte)

theorem digitChar_inj {m n : Nat} (hm : m < 16) (hn : n < 16)
    (h : Nat.digitChar m = Nat.digitChar n) : m = n := by
  have table : ∀ i j : Fin 16, Nat.digitChar i = Nat.digitChar j → i = j := by decide
  exact congrArg Fin.val (table ⟨m, hm⟩ ⟨n, hn⟩ h)

theorem hexByte_inj {a b : UInt8} (h : hexByte a = hexByte b) : a = b := by
  have ha : a.toNat < 256 := a.toNat_lt
  have hb : b.toNat < 256 := b.toNat_lt
  simp only [hexByte, List.cons.injEq, and_true] at h
  have high := digitChar_inj (by omega) (by omega) h.1
  have low := digitChar_inj (by omega) (by omega) h.2
  apply UInt8.toNat_inj.mp
  omega

/-- The hexadecimal form of a byte string determines it. -/
theorem toHex_injective : Function.Injective toHex := by
  intro xs ys h
  have digits : xs.flatMap hexByte = ys.flatMap hexByte := String.ofList_injective h
  clear h
  induction xs generalizing ys with
  | nil =>
      cases ys with
      | nil => rfl
      | cons b ys => simp [hexByte] at digits
  | cons a xs ih =>
      cases ys with
      | nil => simp [hexByte] at digits
      | cons b ys =>
          rw [List.flatMap_cons, List.flatMap_cons] at digits
          obtain ⟨first, rest⟩ := List.append_inj digits rfl
          rw [hexByte_inj first, ih rest]

/-! ## Concatenation -/

/-- `out.set(part, offset)`. -/
def setBytes (out part : Bytes) (offset : Nat) : Bytes :=
  out.take offset ++ part ++ out.drop (offset + part.length)

/-- One round of the loop in `concatBytes`, on the array and the offset. -/
def concatStep (state : Bytes × Nat) (part : Bytes) : Bytes × Nat :=
  (setBytes state.1 part state.2, state.2 + part.length)

/-- `concatBytes` of coordinator-rn: an array of the total size, filled part after part. -/
def concatBytes (parts : List Bytes) : Bytes :=
  let total := (parts.map List.length).sum
  (parts.foldl concatStep (List.replicate total 0, 0)).1

/-- The loop on an array that is filled up to the offset. -/
theorem foldl_concatStep (filled : Bytes) (parts : List Bytes) :
    (parts.foldl concatStep (filled ++ List.replicate (parts.map List.length).sum 0,
      filled.length)).1 = filled ++ parts.flatten := by
  induction parts generalizing filled with
  | nil => simp
  | cons part parts ih =>
      have step : concatStep (filled ++ List.replicate ((part :: parts).map List.length).sum 0,
          filled.length) part = ((filled ++ part) ++
            List.replicate (parts.map List.length).sum 0, (filled ++ part).length) := by
        simp [concatStep, setBytes, List.drop_append]
      rw [List.foldl_cons, step, ih, List.flatten_cons, List.append_assoc]

theorem concatBytes_eq_flatten (parts : List Bytes) : concatBytes parts = parts.flatten :=
  foldl_concatStep [] parts

/-! ## UTF-8 -/

/-- `fromUtf8` of coordinator-rn, and `Buffer.from` of a string. -/
def utf8 (text : String) : Bytes := text.toByteArray.data.toList

theorem utf8_injective : Function.Injective utf8 := by
  intro s t h
  apply String.toByteArray_inj.mp
  exact ByteArray.ext (Array.toList_inj.mp h)

@[simp] theorem utf8_eq_nil_iff (text : String) : utf8 text = [] ↔ text = "" := by
  have empty : utf8 "" = [] := by decide
  rw [← empty]
  exact utf8_injective.eq_iff

end MaanyMpc
