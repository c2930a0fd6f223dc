import MaanyMpc.Cosmos.Address

/-! # Bytes and words of five bits

The register of `convertBits` is never masked. What has been shifted out of its 32 bits, and the
sign, are not read again: only the pending bits are, and those are the last ones taken in. -/

namespace MaanyMpc

/-- The last group shows whether the bits in it are clear. -/
theorem rest_eq_zero_iff (acc : JsInt) {toBits n : ℕ} (h : toBits < 32) (short : n < toBits) :
    shl acc (toBits - n) &&& maxValue toBits = 0 ↔ ∀ b ∈ Bits.bits n acc.toNat, b = false := by
  have small : (shl acc (toBits - n) &&& maxValue toBits).toNat < 2 ^ toBits := by
    rw [toNat_and_maxValue h]
    exact Nat.mod_lt _ (Nat.two_pow_pos toBits)
  have clear := @Bits.bits_clear toBits (shl acc (toBits - n) &&& maxValue toBits).toNat
  rw [bits_rest acc h short, List.forall_mem_append, and_iff_left (Bits.bits_zero _),
    Nat.mod_eq_of_lt small] at clear
  rw [clear]
  exact BitVec.toNat_inj.symm

/-- Without padding, the whole groups are returned if what is left is short and clear. -/
theorem convertBits_strict {fromBits toBits : ℕ} (from_pos : 0 < fromBits) (to_pos : 0 < toBits)
    (fits : fromBits + toBits ≤ 32) {data : List JsInt}
    (small : ∀ v ∈ data, v.toNat < 2 ^ fromBits) :
    ∃ words left, (∀ w ∈ words, w.toNat < 2 ^ toBits) ∧ left.length < toBits ∧
      data.flatMap (fun v => Bits.bits fromBits v.toNat) =
        words.flatMap (fun w => Bits.bits toBits w.toNat) ++ left ∧
      convertBits data fromBits toBits false =
        if left.length < fromBits ∧ ∀ b ∈ left, b = false then .ok words
        else .error (.error "Invalid incomplete group") := by
  have regroups := regroups_foldl from_pos to_pos fits small
  simp only [convertBits]
  generalize data.foldl (Regrouping.take fromBits toBits) ⟨0, 0, []⟩ = s at regroups ⊢
  have short := regroups.short
  have clear := rest_eq_zero_iff s.acc (show toBits < 32 by omega) short
  refine ⟨s.result, Bits.bits s.bits s.acc.toNat, regroups.words, ?_, regroups.bits_eq.symm, ?_⟩
  · rwa [Bits.length_bits]
  · rw [Bits.length_bits, if_neg (by decide)]
    by_cases returned : s.bits < fromBits ∧ ∀ b ∈ Bits.bits s.bits s.acc.toNat, b = false
    · rw [if_pos returned, if_neg]
      rintro (long | rest)
      · omega
      · exact rest (clear.mpr returned.2)
    · rw [if_neg returned, if_pos]
      by_contra neither
      rw [not_or, not_not] at neither
      exact returned ⟨Nat.not_le.mp neither.1, clear.mp neither.2⟩

/-- The bytes of the values below 256. -/
theorem exists_byteValues {values : List JsInt} (small : ∀ v ∈ values, v.toNat < 256) :
    ∃ bytes, values = byteValues bytes := by
  refine ⟨values.map fun v => .ofNat v.toNat, ?_⟩
  rw [byteValues, List.map_map]
  symm
  refine (List.map_congr_left fun v mem => ?_).trans (List.map_id values)
  apply BitVec.eq_of_toNat_eq
  rw [Function.comp_apply, byteValue_toNat, UInt8.toNat_ofNat_of_lt' (small v mem), id]

/-- Words of five bits are regrouped to the bytes of their groups. -/
theorem convertBits_words {words : List JsInt} (small : ∀ v ∈ words, v.toNat < 32) :
    ∃ (bytes : Bytes) (left : List Bool), left.length < 8 ∧
      words.flatMap (fun w => Bits.bits 5 w.toNat) =
        bytes.flatMap (fun b => Bits.bits 8 b.toNat) ++ left ∧
      convertBits words 5 8 false =
        if left.length < 5 ∧ ∀ b ∈ left, b = false then .ok (byteValues bytes)
        else .error (.error "Invalid incomplete group") := by
  obtain ⟨values, left, bounded, short, bits, converted⟩ :=
    convertBits_strict (show 0 < 5 by decide) (show 0 < 8 by decide) (by decide) small
  obtain ⟨bytes, rfl⟩ := exists_byteValues bounded
  rw [byteValues, List.flatMap_map] at bits
  simp only [byteValue_toNat] at bits
  exact ⟨bytes, left, short, bits, converted⟩

/-- What the format makes of the words. -/
theorem convertBits_eq_regroup {words : List JsInt} (small : ∀ v ∈ words, v.toNat < 32) :
    convertBits words 5 8 false =
      match Bech32.regroup (words.map BitVec.toNat) with
      | some bytes => .ok (byteValues bytes)
      | none => .error (.error "Invalid incomplete group") := by
  obtain ⟨bytes, left, short, bits, converted⟩ := convertBits_words small
  rw [← List.flatMap_map BitVec.toNat] at bits
  rw [converted, Bech32.regroup_eq short bits]
  split_ifs <;> rfl

/-- Bytes are regrouped to words with their bits in order and fewer than five clear ones behind
them. Words are regrouped to the bytes of their groups, if what is left is short and clear. There
and back, the bytes are the same. -/
theorem convertBits_exact :
    (∀ bytes : Bytes, ∃ words left, convertBits (byteValues bytes) 8 5 true = .ok words ∧
      words.length = (8 * bytes.length + 4) / 5 ∧ (∀ w ∈ words, w.toNat < 32) ∧
      left.length < 5 ∧ (∀ b ∈ left, b = false) ∧
      words.flatMap (fun w => Bits.bits 5 w.toNat) =
        bytes.flatMap (fun b => Bits.bits 8 b.toNat) ++ left) ∧
    (∀ words : List JsInt, (∀ w ∈ words, w.toNat < 32) →
      ∃ (bytes : Bytes) (left : List Bool), left.length < 8 ∧
        words.flatMap (fun w => Bits.bits 5 w.toNat) =
          bytes.flatMap (fun b => Bits.bits 8 b.toNat) ++ left ∧
        convertBits words 5 8 false =
          if left.length < 5 ∧ ∀ b ∈ left, b = false then .ok (byteValues bytes)
          else .error (.error "Invalid incomplete group")) ∧
    ∀ bytes : Bytes, (convertBits (byteValues bytes) 8 5 true).bind
      (fun words => convertBits words 5 8 false) = .ok (byteValues bytes) := by
  refine ⟨fun bytes => ?_, fun words small => convertBits_words small, fun bytes => ?_⟩
  · obtain ⟨words, left, converted, small, short, zero, regrouped⟩ := convertBits_bytes bytes
    have lengths := congrArg List.length regrouped
    simp only [List.length_append, Bits.length_flatMap] at lengths
    exact ⟨words, left, converted, by omega, small, short, zero, regrouped⟩
  · obtain ⟨words, left, converted, small, short, zero, regrouped⟩ := convertBits_bytes bytes
    rw [← List.flatMap_map BitVec.toNat (Bits.bits 5)] at regrouped
    rw [converted]
    change convertBits words 5 8 false = _
    rw [convertBits_eq_regroup small, Bech32.regroup_eq_some short zero regrouped]

/-- Two words, which are a byte and two clear bits. -/
theorem convertBits_exact_two : convertBits [31, 28] 5 8 false = .ok (byteValues [255]) ∧
    ∃ (bytes : Bytes) (left : List Bool), left.length < 8 ∧
      Bits.bits 5 31 ++ Bits.bits 5 28 = bytes.flatMap (fun b => Bits.bits 8 b.toNat) ++ left ∧
      convertBits [31, 28] 5 8 false =
        if left.length < 5 ∧ ∀ b ∈ left, b = false then .ok (byteValues bytes)
        else .error (.error "Invalid incomplete group") := by
  refine ⟨?_, convertBits_exact.2.1 [31, 28] (by simp)⟩
  have words : Bech32.regroup (([31, 28] : List JsInt).map BitVec.toNat) = some [255] :=
    Bech32.regroup_eq_some (show [false, false].length < 5 by decide) (by simp) (by decide)
  rw [convertBits_eq_regroup (by simp), words]

end MaanyMpc
