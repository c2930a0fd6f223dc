import MaanyMpc.Coordinator.BackupShare
import MaanyMpc.Library.Bech32

/-! # Cosmos addresses

`address.ts`, which is the same in both coordinators. The operators `<<` and `>>` work on signed
numbers of 32 bits and take the lowest five bits of their second operand. -/

namespace MaanyMpc

/-- A number as the bitwise operators see it. -/
abbrev JsInt := BitVec 32

/-- `a << n`. -/
def shl (a : JsInt) (n : ℕ) : JsInt := a <<< (n % 32)

/-- `a >> n`. -/
def sar (a : JsInt) (n : ℕ) : JsInt := a.sshiftRight (n % 32)

/-! ## The source -/

def bech32Charset : List Char := "qpzry9x8gf2tvdw0s3jn54khce6mua7l".toList

def generators : List JsInt := [0x3b6a57b2, 0x26508e6d, 0x1ea119fa, 0x3d4233dd, 0x2a1462b3]

def polymodStep (chk value : JsInt) : JsInt :=
  let top := sar chk 25
  let chk := shl (chk &&& 0x1ffffff) 5 ^^^ value
  generators.zipIdx.foldl (fun chk g => if sar top g.2 &&& 1 = 1 then chk ^^^ g.1 else chk) chk

def polymod (values : List JsInt) : JsInt := values.foldl polymodStep 1

/-- `char.charCodeAt(0)`. -/
def charCode (c : Char) : JsInt :=
  .ofNat 32 (if c.toNat < 0x10000 then c.toNat else 0xd800 + (c.toNat - 0x10000) / 0x400)

def hrpExpand (hrp : String) : List JsInt :=
  hrp.toList.map (fun c => sar (charCode c) 5) ++ 0 :: hrp.toList.map fun c => charCode c &&& 31

def createChecksum (hrp : String) (data : List JsInt) : List JsInt :=
  let values := hrpExpand hrp ++ data ++ [0, 0, 0, 0, 0, 0]
  let mod := polymod values ^^^ 1
  (List.range 6).map fun p => sar mod (5 * (5 - p)) &&& 31

/-- `while (bits >= to)`; the calls have a positive `to`. -/
def drain (acc maxv : JsInt) (toBits bits : ℕ) (result : List JsInt) : ℕ × List JsInt :=
  if 0 < toBits ∧ toBits ≤ bits then
    drain acc maxv toBits (bits - toBits) (result ++ [sar acc (bits - toBits) &&& maxv])
  else (bits, result)
termination_by bits

/-- `acc`, `bits` and `result`. -/
structure Regrouping where
  acc : JsInt
  bits : ℕ
  result : List JsInt

def maxValue (toBits : ℕ) : JsInt := shl 1 toBits - 1

def Regrouping.take (fromBits toBits : ℕ) (s : Regrouping) (value : JsInt) : Regrouping :=
  let acc := shl s.acc fromBits ||| value
  let drained := drain acc (maxValue toBits) toBits (s.bits + fromBits) s.result
  ⟨acc, drained.1, drained.2⟩

def convertBits (data : List JsInt) (fromBits toBits : ℕ) (pad : Bool) :
    Except JsError (List JsInt) :=
  let s := data.foldl (Regrouping.take fromBits toBits) ⟨0, 0, []⟩
  let rest := shl s.acc (toBits - s.bits) &&& maxValue toBits
  if pad then .ok (if 0 < s.bits then s.result ++ [rest] else s.result)
  else if fromBits ≤ s.bits ∨ rest ≠ 0 then .error (.error "Invalid incomplete group")
  else .ok s.result

/-- `BECH32_CHARSET[value]`, as it is appended to a string. -/
def charsetAt (value : JsInt) : String :=
  match bech32Charset[value.toNat]? with
  | some c => .singleton c
  | none => "undefined"

/-- The values of a `Uint8Array`. -/
def byteValues (bytes : Bytes) : List JsInt := bytes.map fun b => .ofNat 32 b.toNat

/-- The hash functions are those of the platform. Without a prefix it is `cosmos`. -/
def pubkeyToCosmosAddress (sha256 : Bytes → Bytes) (ripemd160 : Bytes → Vector UInt8 20)
    (pubkeyCompressed : Bytes) (hrp : Option String) : Except JsError String := do
  let hrp := hrp.getD "cosmos"
  let words ← convertBits (byteValues (ripemd160 (sha256 pubkeyCompressed)).toList) 8 5 true
  let combined := words ++ createChecksum hrp words
  return combined.foldl (fun address value => address ++ charsetAt value) (hrp ++ "1")

/-! ## The checksum -/

theorem msb_eq_false {x : JsInt} (h : x.toNat < 2 ^ 31) : x.msb = false := by
  rw [BitVec.msb_eq_false_iff_two_mul_lt]
  omega

theorem sar_toNat {x : JsInt} (h : x.toNat < 2 ^ 31) {n : ℕ} (small : n < 32) :
    (sar x n).toNat = x.toNat >>> n := by
  rw [sar, Nat.mod_eq_of_lt small, BitVec.toNat_sshiftRight_of_msb_false (msb_eq_false h)]

theorem sar_and_one {x : JsInt} (h : x.toNat < 2 ^ 31) {n : ℕ} (small : n < 32) :
    sar x n &&& 1 = 1 ↔ x.toNat.testBit n = true := by
  rw [← BitVec.toNat_inj, BitVec.toNat_and, sar_toNat h small]
  change x.toNat >>> n &&& 1 = 1 ↔ _
  rw [Nat.and_one_is_mod, Nat.shiftRight_eq_div_pow, Nat.testBit_eq_decide_div_mod_eq,
    decide_eq_true_iff]

/-- The inner loop adds the constants of the bits that are set. -/
theorem foldl_select {top : JsInt} (h : top.toNat < 2 ^ 31) (gs : List (JsInt × ℕ))
    (small : ∀ g ∈ gs, g.2 < 32) (chk : JsInt) :
    (gs.foldl (fun chk g => if sar top g.2 &&& 1 = 1 then chk ^^^ g.1 else chk) chk).toNat =
      (gs.map fun g => if top.toNat.testBit g.2 then g.1.toNat else 0).foldl (· ^^^ ·)
        chk.toNat := by
  induction gs generalizing chk with
  | nil => rfl
  | cons g gs ih =>
      obtain ⟨first, rest⟩ := List.forall_mem_cons.mp small
      rw [List.foldl_cons, ih rest, List.map_cons, List.foldl_cons]
      by_cases bit : top.toNat.testBit g.2 = true
      · rw [if_pos ((sar_and_one h first).mpr bit), if_pos bit, BitVec.toNat_xor]
      · rw [if_neg (mt (sar_and_one h first).mp bit), if_neg bit, Nat.xor_zero]

theorem shl_low_toNat (chk : JsInt) :
    (shl (chk &&& 0x1ffffff) 5).toNat = (chk.toNat &&& 0x1ffffff) <<< 5 := by
  rw [shl, BitVec.toNat_shiftLeft, BitVec.toNat_and]
  change ((chk.toNat &&& 0x1ffffff) <<< 5) % 2 ^ 32 = _
  rw [Bech32.low_eq_mod, Nat.shiftLeft_eq]
  omega

/-- A step of the loop is a step of the register. -/
theorem polymodStep_toNat {chk : JsInt} (h : chk.toNat < 2 ^ 30) (value : JsInt) :
    (polymodStep chk value).toNat = Bech32.shift chk.toNat ^^^ value.toNat := by
  have top : (sar chk 25).toNat = chk.toNat >>> 25 := sar_toNat (by omega) (by decide)
  have small : (sar chk 25).toNat < 2 ^ 31 := by
    have bound := Bech32.shiftRight_lt h
    omega
  have selected := foldl_select small generators.zipIdx (by decide)
    (shl (chk &&& 0x1ffffff) 5 ^^^ value)
  have taps : (generators.zipIdx.map fun g =>
      if (sar chk 25).toNat.testBit g.2 then g.1.toNat else 0) =
      Bech32.generators.zipIdx.map fun g => if (chk.toNat >>> 25).testBit g.2 then g.1 else 0 := by
    rw [top]
    rfl
  rw [polymodStep, selected, taps, BitVec.toNat_xor, shl_low_toNat, Bech32.foldl_xor, Bech32.shift,
    Bech32.taps, Nat.xor_right_comm]

theorem foldl_polymodStep {values : List JsInt} (words : ∀ v ∈ values, v.toNat < 32) {chk : JsInt}
    (h : chk.toNat < 2 ^ 30) : (values.foldl polymodStep chk).toNat =
      Register.run Bech32.shift chk.toNat (values.map BitVec.toNat) := by
  induction values generalizing chk with
  | nil => rfl
  | cons v values ih =>
      obtain ⟨first, rest⟩ := List.forall_mem_cons.mp words
      have step := polymodStep_toNat h v
      have next : (polymodStep chk v).toNat < 2 ^ 30 := by
        rw [step]
        exact Nat.xor_lt_two_pow (Bech32.shift_regular.lt _ h) (by omega)
      rw [List.foldl_cons, ih rest next, List.map_cons, Register.run_cons, step]

/-- `polymod` is the register of the format. -/
theorem polymod_toNat {values : List JsInt} (words : ∀ v ∈ values, v.toNat < 32) :
    (polymod values).toNat = Bech32.polymod (values.map BitVec.toNat) :=
  foldl_polymodStep words (by decide)

theorem charCode_toNat {c : Char} (ascii : c.toNat < 128) : (charCode c).toNat = c.toNat := by
  rw [charCode, if_pos (by omega), BitVec.toNat_ofNat, Nat.mod_eq_of_lt (by omega)]

theorem hrpExpand_toNat {hrp : String} (ascii : ∀ c ∈ hrp.toList, c.toNat < 128) :
    (hrpExpand hrp).map BitVec.toNat = Bech32.expand hrp.toList := by
  have high : ∀ c ∈ hrp.toList, (sar (charCode c) 5).toNat = c.toNat >>> 5 := by
    intro c mem
    have code := charCode_toNat (ascii c mem)
    have bound := ascii c mem
    rw [sar_toNat (by omega) (by decide), code]
  have low : ∀ c ∈ hrp.toList, (charCode c &&& 31).toNat = c.toNat &&& 31 := by
    intro c mem
    rw [BitVec.toNat_and, charCode_toNat (ascii c mem)]
    rfl
  simp only [hrpExpand, List.map_append, List.map_cons, List.map_map, Function.comp_def]
  rw [List.map_congr_left high, List.map_congr_left low]
  rfl

theorem createChecksum_lt (hrp : String) (data : List JsInt) :
    ∀ v ∈ createChecksum hrp data, v.toNat < 32 := by
  refine List.forall_mem_map.mpr fun p _ => ?_
  rw [BitVec.toNat_and]
  exact Nat.and_lt_two_pow _ (n := 5) (by decide)

theorem createChecksum_toNat {hrp : String} (ascii : ∀ c ∈ hrp.toList, c.toNat < 128)
    {data : List JsInt} (words : ∀ v ∈ data, v.toNat < 32) :
    (createChecksum hrp data).map BitVec.toNat =
      Bech32.checksum hrp.toList (data.map BitVec.toNat) := by
  have small := Bech32.expand_lt ascii
  rw [← hrpExpand_toNat ascii, List.forall_mem_map] at small
  have all : ∀ v ∈ hrpExpand hrp ++ data ++ [0, 0, 0, 0, 0, 0], v.toNat < 32 := by
    refine List.forall_mem_append.mpr ⟨List.forall_mem_append.mpr ⟨small, words⟩, ?_⟩
    simp
  have register := polymod_toNat all
  rw [List.map_append, List.map_append, hrpExpand_toNat ascii] at register
  have bound : (polymod (hrpExpand hrp ++ data ++ [0, 0, 0, 0, 0, 0]) ^^^ 1).toNat < 2 ^ 30 := by
    rw [BitVec.toNat_xor, polymod_toNat all]
    refine Nat.xor_lt_two_pow (Bech32.polymod_lt ?_) (by decide)
    exact List.forall_mem_map.mpr all
  simp only [createChecksum, Bech32.checksum, Bech32.symbolsOf, List.map_map]
  refine List.map_congr_left fun p mem => ?_
  have place : 5 * (5 - p) < 32 := by omega
  rw [Function.comp_apply, BitVec.toNat_and, sar_toNat (by omega) place, BitVec.toNat_xor, register]
  rfl

/-! ## Regrouping -/

theorem maxValue_toNat {toBits : ℕ} (h : toBits < 32) :
    (maxValue toBits).toNat = 2 ^ toBits - 1 := by
  have small : 2 ^ toBits < 2 ^ 32 := Nat.pow_lt_pow_right (by decide) h
  have shifted : (shl 1 toBits).toNat = 2 ^ toBits := by
    rw [shl, Nat.mod_eq_of_lt h, BitVec.toNat_shiftLeft]
    change (1 <<< toBits) % 2 ^ 32 = _
    rw [Nat.one_shiftLeft, Nat.mod_eq_of_lt small]
  have positive := Nat.two_pow_pos toBits
  rw [maxValue, BitVec.toNat_sub, shifted]
  change (2 ^ 32 - 1 + 2 ^ toBits) % 2 ^ 32 = _
  omega

theorem toNat_and_maxValue {toBits : ℕ} (h : toBits < 32) (x : JsInt) :
    (x &&& maxValue toBits).toNat = x.toNat % 2 ^ toBits := by
  rw [BitVec.toNat_and, maxValue_toNat h, Nat.and_two_pow_sub_one_eq_mod]

/-- Below the top of a register a shift and a mask read bits out of it, whatever its sign. -/
theorem bits_sar_and {acc : JsInt} {toBits n : ℕ} (h : toBits < 32) (fits : n + toBits ≤ 32) :
    Bits.bits toBits (sar acc n &&& maxValue toBits).toNat =
      Bits.bits toBits (acc.toNat >>> n) := by
  rw [toNat_and_maxValue h]
  refine Bits.bits_congr fun i hi => ?_
  have place : n + i < 32 := by omega
  rw [Nat.testBit_mod_two_pow, Nat.testBit_shiftRight, sar, Nat.mod_eq_of_lt (by omega),
    BitVec.testBit_toNat, BitVec.getLsbD_sshiftRight, BitVec.testBit_toNat]
  simp [hi, place, show i < 32 by omega]

/-- What is shifted in follows the bits that were there. -/
theorem bits_shl_or (acc : JsInt) {value : JsInt} {fromBits n : ℕ}
    (small : value.toNat < 2 ^ fromBits) (h : fromBits < 32) (fits : n + fromBits ≤ 32) :
    Bits.bits (n + fromBits) (shl acc fromBits ||| value).toNat =
      Bits.bits n acc.toNat ++ Bits.bits fromBits value.toNat := by
  rw [Bits.bits_add]
  congr 1
  · refine Bits.bits_congr fun i hi => ?_
    have high : value.getLsbD (fromBits + i) = false := by
      rw [← BitVec.testBit_toNat]
      refine Nat.testBit_lt_two_pow (Nat.lt_of_lt_of_le small ?_)
      exact Nat.pow_le_pow_right (by decide) (by omega)
    rw [Nat.testBit_shiftRight, BitVec.testBit_toNat, BitVec.getLsbD_or, high, shl,
      Nat.mod_eq_of_lt h, BitVec.getLsbD_shiftLeft, BitVec.testBit_toNat]
    simp [show fromBits + i < 32 by omega]
  · refine Bits.bits_congr fun i hi => ?_
    rw [BitVec.testBit_toNat, BitVec.getLsbD_or, shl, Nat.mod_eq_of_lt h,
      BitVec.getLsbD_shiftLeft, BitVec.testBit_toNat]
    simp [hi]

/-- The inner loop moves whole groups from the register to the result. -/
theorem drain_spec (acc : JsInt) {toBits bits : ℕ} {result : List JsInt}
    (positive : 0 < toBits) (h : toBits < 32) (fits : bits ≤ 32)
    (words : ∀ r ∈ result, r.toNat < 2 ^ toBits) :
    let drained := drain acc (maxValue toBits) toBits bits result
    drained.1 < toBits ∧ (∀ r ∈ drained.2, r.toNat < 2 ^ toBits) ∧
      drained.2.flatMap (fun r => Bits.bits toBits r.toNat) ++ Bits.bits drained.1 acc.toNat =
        result.flatMap (fun r => Bits.bits toBits r.toNat) ++ Bits.bits bits acc.toNat := by
  fun_induction drain acc (maxValue toBits) toBits bits result with
  | case1 bits result more ih =>
      have group : (sar acc (bits - toBits) &&& maxValue toBits).toNat < 2 ^ toBits := by
        rw [toNat_and_maxValue h]
        exact Nat.mod_lt _ (Nat.two_pow_pos toBits)
      have grouped := ih (by omega) (List.forall_mem_append.mpr
        ⟨words, List.forall_mem_singleton.mpr group⟩)
      refine ⟨grouped.1, grouped.2.1, grouped.2.2.trans ?_⟩
      have split := Bits.bits_add toBits (bits - toBits) acc.toNat
      rw [Nat.add_sub_cancel' more.2] at split
      rw [split, List.flatMap_append, List.flatMap_singleton, bits_sar_and h (by omega),
        List.append_assoc]
  | case2 bits result done => exact ⟨by omega, words, rfl⟩

/-- What has been taken in is in the result, but for the lowest bits of the register. -/
structure Regroups (fromBits toBits : ℕ) (data : List JsInt) (s : Regrouping) : Prop where
  short : s.bits < toBits
  words : ∀ r ∈ s.result, r.toNat < 2 ^ toBits
  bits_eq : s.result.flatMap (fun r => Bits.bits toBits r.toNat) ++ Bits.bits s.bits s.acc.toNat =
    data.flatMap fun v => Bits.bits fromBits v.toNat

theorem Regroups.take {fromBits toBits : ℕ} {data : List JsInt} {s : Regrouping}
    (regroups : Regroups fromBits toBits data s) (positive : 0 < fromBits)
    (fits : fromBits + toBits ≤ 32) {value : JsInt} (small : value.toNat < 2 ^ fromBits) :
    Regroups fromBits toBits (data ++ [value]) (s.take fromBits toBits value) := by
  have short := regroups.short
  have room : s.bits + fromBits ≤ 32 := by omega
  have shifted := bits_shl_or s.acc small (by omega) room
  obtain ⟨left, words, moved⟩ := drain_spec (shl s.acc fromBits ||| value) (by omega)
    (by omega) room regroups.words
  refine ⟨left, words, moved.trans ?_⟩
  rw [shifted, ← List.append_assoc, regroups.bits_eq, List.flatMap_append, List.flatMap_singleton]

/-- The loop of `convertBits`. -/
theorem regroups_foldl {fromBits toBits : ℕ} (from_pos : 0 < fromBits) (to_pos : 0 < toBits)
    (fits : fromBits + toBits ≤ 32) {data : List JsInt}
    (small : ∀ v ∈ data, v.toNat < 2 ^ fromBits) :
    Regroups fromBits toBits data (data.foldl (Regrouping.take fromBits toBits) ⟨0, 0, []⟩) := by
  induction data using List.reverseRecOn with
  | nil => exact ⟨to_pos, by simp, rfl⟩
  | append_singleton data value ih =>
      obtain ⟨before, last⟩ := List.forall_mem_append.mp small
      rw [List.foldl_append]
      exact (ih before).take from_pos fits (last value (List.mem_singleton_self _))

/-- The last group is filled up with zeros. -/
theorem bits_rest (acc : JsInt) {toBits n : ℕ} (h : toBits < 32) (short : n < toBits) :
    Bits.bits toBits (shl acc (toBits - n) &&& maxValue toBits).toNat =
      Bits.bits n acc.toNat ++ Bits.bits (toBits - n) 0 := by
  have shifted := bits_shl_or acc (show (0#32).toNat < 2 ^ (toBits - n) by simp)
    (show toBits - n < 32 by omega) (show n + (toBits - n) ≤ 32 by omega)
  rw [Nat.add_sub_cancel' short.le, BitVec.or_zero] at shifted
  refine Eq.trans (Bits.bits_congr fun i hi => ?_) shifted
  rw [toNat_and_maxValue h, Nat.testBit_mod_two_pow]
  simp [hi]

theorem convertBits_pad {fromBits toBits : ℕ} (from_pos : 0 < fromBits) (to_pos : 0 < toBits)
    (fits : fromBits + toBits ≤ 32) {data : List JsInt}
    (small : ∀ v ∈ data, v.toNat < 2 ^ fromBits) :
    ∃ words left, convertBits data fromBits toBits true = .ok words ∧
      (∀ w ∈ words, w.toNat < 2 ^ toBits) ∧ left.length < toBits ∧ (∀ b ∈ left, b = false) ∧
      words.flatMap (fun w => Bits.bits toBits w.toNat) =
        data.flatMap (fun v => Bits.bits fromBits v.toNat) ++ left := by
  have regroups := regroups_foldl from_pos to_pos fits small
  simp only [convertBits, if_pos]
  generalize data.foldl (Regrouping.take fromBits toBits) ⟨0, 0, []⟩ = s at regroups ⊢
  have bits_eq := regroups.bits_eq
  by_cases some : 0 < s.bits
  · refine ⟨_, Bits.bits (toBits - s.bits) 0, rfl, ?_, ?_, Bits.bits_zero _, ?_⟩
    · rw [if_pos some]
      refine List.forall_mem_append.mpr ⟨regroups.words, List.forall_mem_singleton.mpr ?_⟩
      rw [toNat_and_maxValue (by omega)]
      exact Nat.mod_lt _ (Nat.two_pow_pos toBits)
    · rw [Bits.length_bits]
      omega
    · rw [if_pos some, List.flatMap_append, List.flatMap_singleton,
        bits_rest s.acc (by omega) regroups.short, ← bits_eq, List.append_assoc]
  · refine ⟨_, [], rfl, ?_, to_pos, by simp, ?_⟩
    · rw [if_neg some]
      exact regroups.words
    · rw [Nat.eq_zero_of_not_pos some, Bits.bits] at bits_eq
      rw [if_neg some, List.append_nil, ← bits_eq, List.append_nil]

theorem byteValue_toNat (b : UInt8) : (BitVec.ofNat 32 b.toNat).toNat = b.toNat :=
  Nat.mod_eq_of_lt (Nat.lt_of_lt_of_le b.toNat_lt (by decide))

/-- Bytes are padded to words of five bits. -/
theorem convertBits_bytes (bytes : Bytes) :
    ∃ words left, convertBits (byteValues bytes) 8 5 true = .ok words ∧
      (∀ w ∈ words, w.toNat < 32) ∧ left.length < 5 ∧ (∀ b ∈ left, b = false) ∧
      words.flatMap (fun w => Bits.bits 5 w.toNat) =
        bytes.flatMap (fun b => Bits.bits 8 b.toNat) ++ left := by
  have small : ∀ v ∈ byteValues bytes, v.toNat < 2 ^ 8 := by
    refine List.forall_mem_map.mpr fun b _ => ?_
    rw [byteValue_toNat]
    exact b.toNat_lt
  obtain ⟨words, left, converted, five, short, zero, regrouped⟩ :=
    convertBits_pad (show 0 < 8 by decide) (show 0 < 5 by decide) (by decide) small
  rw [byteValues, List.flatMap_map] at regrouped
  simp only [byteValue_toNat] at regrouped
  exact ⟨words, left, converted, five, short, zero, regrouped⟩

/-! ## Addresses -/

theorem charsetAt_eq {value : JsInt} (h : value.toNat < 32) :
    (charsetAt value).toList = [Bech32.symbol value.toNat] := by
  have same : bech32Charset = Bech32.charset := by decide
  have inside : value.toNat < Bech32.charset.length := h
  rw [charsetAt, same, List.getElem?_eq_getElem inside]
  simp [Bech32.symbol, List.getD_eq_getElem?_getD, inside]

theorem toList_foldl_charsetAt {values : List JsInt} (words : ∀ v ∈ values, v.toNat < 32)
    (address : String) :
    (values.foldl (fun address value => address ++ charsetAt value) address).toList =
      address.toList ++ (values.map BitVec.toNat).map Bech32.symbol := by
  induction values generalizing address with
  | nil => simp
  | cons v values ih =>
      obtain ⟨first, rest⟩ := List.forall_mem_cons.mp words
      rw [List.foldl_cons, ih rest, String.toList_append, charsetAt_eq first, List.append_assoc]
      rfl

/-- The text of an address, over the words of the hash. -/
theorem pubkeyToCosmosAddress_eq_ok (sha256 : Bytes → Bytes) (ripemd160 : Bytes → Vector UInt8 20)
    (pubkey : Bytes) {hrp : String} (ascii : ∀ c ∈ hrp.toList, c.toNat < 128) :
    ∃ address data, pubkeyToCosmosAddress sha256 ripemd160 pubkey (some hrp) = .ok address ∧
      address.toList = hrp.toList ++
        '1' :: (data ++ Bech32.checksum hrp.toList data).map Bech32.symbol ∧
      (∀ v ∈ data, v < 32) ∧ data.length = 32 ∧
      Bech32.regroup data = some (ripemd160 (sha256 pubkey)).toList := by
  obtain ⟨words, left, converted, small, short, zero, regrouped⟩ :=
    convertBits_bytes (ripemd160 (sha256 pubkey)).toList
  have lengths := congrArg List.length regrouped
  simp only [List.length_append, Bits.length_flatMap, Vector.length_toList] at lengths
  have five : ∀ w ∈ words ++ createChecksum hrp words, w.toNat < 32 :=
    List.forall_mem_append.mpr ⟨small, createChecksum_lt hrp words⟩
  refine ⟨(words ++ createChecksum hrp words).foldl (fun address value =>
    address ++ charsetAt value) (hrp ++ "1"), words.map BitVec.toNat, ?_, ?_,
    List.forall_mem_map.mpr small, ?_, ?_⟩
  · simp only [pubkeyToCosmosAddress, converted]
    rfl
  · rw [toList_foldl_charsetAt five, List.map_append, createChecksum_toNat ascii small,
      String.toList_append, List.append_assoc]
    rfl
  · rw [List.length_map]
    omega
  · refine Bech32.regroup_eq_some short zero ?_
    rw [List.flatMap_map]
    exact regrouped

/-- An address is read back as the prefix and the hash. The format has no space in a prefix, so
with one in it only the checks of `Bech32.parse` are met. -/
theorem address_decodes (sha256 : Bytes → Bytes) (ripemd160 : Bytes → Vector UInt8 20)
    (pubkey : Bytes) (hrp : String) (nonempty : 1 ≤ hrp.length) (short : hrp.length ≤ 51)
    (printable : ∀ c ∈ hrp.toList, 32 ≤ c.toNat ∧ c.toNat ≤ 126 ∧ c.isUpper = false) :
    ∃ address, pubkeyToCosmosAddress sha256 ripemd160 pubkey (some hrp) = .ok address ∧
      Bech32.parse address.toList = some (hrp.toList, (ripemd160 (sha256 pubkey)).toList) ∧
      (' ' ∉ hrp.toList →
        Bech32.decode address.toList = some (hrp.toList, (ripemd160 (sha256 pubkey)).toList)) := by
  have ascii : ∀ c ∈ hrp.toList, c.toNat < 128 := by
    intro c mem
    have bound := printable c mem
    omega
  obtain ⟨address, data, ran, text, words, length, regrouped⟩ :=
    pubkeyToCosmosAddress_eq_ok sha256 ripemd160 pubkey ascii
  have all : ∀ v ∈ data ++ Bech32.checksum hrp.toList data, v < 32 :=
    List.forall_mem_append.mpr ⟨words, Bech32.symbolsOf_lt _⟩
  have some_char : hrp.toList ≠ [] := by
    rw [← List.length_pos_iff_ne_nil, String.length_toList]
    exact nonempty
  have parsed := Bech32.parse_eq_some some_char (Bech32.expand_lt ascii) words regrouped
  rw [← text] at parsed
  refine ⟨address, ran, parsed, fun no_space => ?_⟩
  rw [Bech32.decode_eq_parse, parsed]
  · rw [text, List.length_append, List.length_cons, List.length_map, List.length_append, length,
      Bech32.length_checksum, String.length_toList]
    omega
  · rw [text]
    refine List.forall_mem_append.mpr ⟨fun c mem => ?_, List.forall_mem_cons.mpr ⟨by decide,
      List.forall_mem_map.mpr fun v mem => Bech32.symbol_visible (all v mem)⟩⟩
    have bound := printable c mem
    have apart : c.toNat ≠ 32 := by
      intro same
      obtain rfl : c = ' ' := Char.toNat_inj.mp same
      exact no_space mem
    exact ⟨by omega, bound.2⟩

/-- The usual prefix. -/
theorem address_decodes_cosmos : ∃ address,
    pubkeyToCosmosAddress id (fun _ => Vector.replicate 20 0xab) [2, 1] (some "cosmos") =
      .ok address ∧
    Bech32.parse address.toList = some ("cosmos".toList, List.replicate 20 0xab) ∧
    (' ' ∉ "cosmos".toList →
      Bech32.decode address.toList = some ("cosmos".toList, List.replicate 20 0xab)) :=
  address_decodes id (fun _ => Vector.replicate 20 0xab) [2, 1] "cosmos" (by decide) (by decide)
    (List.forall_iff_forall_mem.mp (by decide))

/-! ## One different symbol -/

theorem exists_of_differ_once {α : Type*} {xs ys : List α} (length : xs.length = ys.length)
    (once : ∃! i : ℕ, xs[i]? ≠ ys[i]?) :
    ∃ front u v rest, xs = front ++ u :: rest ∧ ys = front ++ v :: rest ∧ u ≠ v := by
  obtain ⟨i, differ, only⟩ := once
  induction xs generalizing ys i with
  | nil =>
      obtain rfl := List.length_eq_zero_iff.mp length.symm
      exact absurd rfl differ
  | cons x xs ih =>
      obtain ⟨y, ys, rfl⟩ := List.exists_cons_of_length_eq_add_one length.symm
      by_cases same : x = y
      · obtain _ | i := i
        · simp [same] at differ
        · simp only [List.getElem?_cons_succ] at differ
          have tails : ∀ j, xs[j]? ≠ ys[j]? → j = i := by
            intro j other
            exact Nat.succ.inj (only (j + 1) (by simpa using other))
          obtain ⟨front, u, v, rest, rfl, rfl, apart⟩ := ih (Nat.succ.inj length) i differ tails
          exact ⟨x :: front, u, v, rest, rfl, by rw [same]; rfl, apart⟩
      · have first : 0 = i := only 0 (by simpa using same)
        have tails : xs = ys := by
          apply List.ext_getElem?
          intro j
          by_contra other
          have place := only (j + 1) (by simpa using other)
          omega
        exact ⟨[], x, y, ys, by rw [tails]; rfl, rfl, same⟩

theorem createChecksum_ne {hrp : String} (ascii : ∀ c ∈ hrp.toList, c.toNat < 128)
    {xs ys : List JsInt} (hxs : ∀ v ∈ xs, v.toNat < 32) (hys : ∀ v ∈ ys, v.toNat < 32)
    (length : xs.length = ys.length) (once : ∃! i : ℕ, xs[i]? ≠ ys[i]?) :
    createChecksum hrp xs ≠ createChecksum hrp ys := by
  obtain ⟨front, u, v, rest, rfl, rfl, apart⟩ := exists_of_differ_once length once
  intro same
  have checksums := congrArg (List.map BitVec.toNat) same
  have prefix_lt := Bech32.expand_lt ascii
  rw [createChecksum_toNat ascii hxs, createChecksum_toNat ascii hys] at checksums
  rw [← List.forall_mem_map (P := (· < 32))] at hxs hys
  simp only [List.map_append, List.map_cons] at checksums hxs hys
  exact Bech32.checksum_ne (List.forall_mem_append.mpr ⟨prefix_lt, hxs⟩)
    (List.forall_mem_append.mpr ⟨prefix_lt, hys⟩) (mt BitVec.eq_of_toNat_eq apart) checksums

/-- A checksum shows every single different word, of whatever number of words. In an address the
character may become any other, and where it becomes a second separator this is the check under
the prefix of the address. -/
theorem checksum_detects (hrp : String)
    (printable : ∀ c ∈ hrp.toList, 32 ≤ c.toNat ∧ c.toNat ≤ 126) :
    (∀ xs ys : List JsInt, (∀ v ∈ xs, v.toNat < 32) → (∀ v ∈ ys, v.toNat < 32) →
      xs.length = ys.length → (∃! i : ℕ, xs[i]? ≠ ys[i]?) →
      createChecksum hrp xs ≠ createChecksum hrp ys) ∧
    ∀ sha256 ripemd160 pubkey address,
      pubkeyToCosmosAddress sha256 ripemd160 pubkey (some hrp) = .ok address →
      ∀ i, hrp.length < i → i < address.length → ∀ c, address.toList[i]? ≠ some c →
        ¬ Bech32.VerifiesFor hrp.toList (address.toList.set i c) ∧
        (c ≠ '1' → ¬ Bech32.Verifies (address.toList.set i c)) := by
  have ascii : ∀ c ∈ hrp.toList, c.toNat < 128 := by
    intro c mem
    have bound := printable c mem
    omega
  refine ⟨fun xs ys hxs hys => createChecksum_ne ascii hxs hys, ?_⟩
  intro sha256 ripemd160 pubkey address ran i after inside c differ
  obtain ⟨_, data, made, text, small, _, _⟩ :=
    pubkeyToCosmosAddress_eq_ok sha256 ripemd160 pubkey ascii
  obtain rfl := Except.ok.inj (ran.symm.trans made)
  have right := Bech32.polymod_checksum
    (List.forall_mem_append.mpr ⟨Bech32.expand_lt ascii, small⟩)
  have all : ∀ v ∈ data ++ Bech32.checksum hrp.toList data, v < 32 :=
    List.forall_mem_append.mpr ⟨small, Bech32.symbolsOf_lt _⟩
  rw [List.append_assoc] at right
  generalize data ++ Bech32.checksum hrp.toList data = words at text right all
  rw [← String.length_toList] at after inside
  rw [text] at inside differ ⊢
  exact Bech32.not_verifies_set all right after inside differ

/-- Three words, and the first character of a hash. -/
theorem checksum_detects_cosmos :
    createChecksum "cosmos" [1, 2, 3] ≠ createChecksum "cosmos" [1, 7, 3] ∧ ∃ address,
      pubkeyToCosmosAddress id (fun _ => Vector.replicate 20 0xab) [2, 1] (some "cosmos") =
        .ok address ∧
      ∀ c, address.toList[7]? ≠ some c →
        ¬ Bech32.VerifiesFor "cosmos".toList (address.toList.set 7 c) ∧
        (c ≠ '1' → ¬ Bech32.Verifies (address.toList.set 7 c)) := by
  have ascii : ∀ c ∈ "cosmos".toList, c.toNat < 128 :=
    List.forall_iff_forall_mem.mp (by decide)
  have detects := checksum_detects "cosmos" (List.forall_iff_forall_mem.mp (by decide))
  obtain ⟨address, data, ran, text, _, length, _⟩ :=
    pubkeyToCosmosAddress_eq_ok id (fun _ => Vector.replicate 20 0xab) [2, 1] ascii
  have inside : 7 < address.length := by
    rw [← String.length_toList, text]
    simp [length]
  refine ⟨detects.1 [1, 2, 3] [1, 7, 3] (by simp) (by simp) rfl ⟨1, by simp, ?_⟩, address, ran,
    detects.2 _ _ _ _ ran 7 (by decide) inside⟩
  intro i differ
  obtain _ | _ | _ | i := i
  · exact absurd rfl differ
  · rfl
  · exact absurd rfl differ
  · exact absurd rfl differ

end MaanyMpc
