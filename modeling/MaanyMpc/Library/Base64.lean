import MaanyMpc.Library.Bits
import Mathlib.Data.List.DropRight

/-! # Base64

The padded encoding of a byte string, and the lenient reading of a text that takes both
alphabets and skips every other character. -/

namespace Base64

def alphabet : List Char :=
  "ABCDEFGHIJKLMNOPQRSTUVWXYZabcdefghijklmnopqrstuvwxyz0123456789+/".toList

def digit (n : ℕ) : Char := alphabet.getD n '='

/-- The two characters that the URL-safe alphabet replaces are read as well. -/
def value? (c : Char) : Option ℕ :=
  if c = '-' then some 62 else if c = '_' then some 63 else alphabet.findIdx? (· == c)

theorem value?_digit {n : ℕ} (h : n < 64) : value? (digit n) = some n := by
  have table : ∀ i : Fin 64, value? (digit i) = some i.val := by decide +kernel
  exact table ⟨n, h⟩

@[simp] theorem value?_pad : value? '=' = none := by decide +kernel

/-! ## Encoding -/

def encodeList : List UInt8 → List Char
  | [] => []
  | [a] => [digit (a.toNat / 4), digit (a.toNat % 4 * 16), '=', '=']
  | [a, b] =>
    [digit (a.toNat / 4), digit (a.toNat % 4 * 16 + b.toNat / 16), digit (b.toNat % 16 * 4), '=']
  | a :: b :: c :: rest =>
    digit (a.toNat / 4) :: digit (a.toNat % 4 * 16 + b.toNat / 16) ::
      digit (b.toNat % 16 * 4 + c.toNat / 64) :: digit (c.toNat % 64) :: encodeList rest

def encode (bytes : List UInt8) : String := String.ofList (encodeList bytes)

/-- What holds of the digits and of the padding holds of every character of an encoding. -/
theorem forall_mem_encodeList {P : Char → Prop} (digits : ∀ n < 64, P (digit n)) (pad : P '=')
    (bytes : List UInt8) : ∀ c ∈ encodeList bytes, P c := by
  fun_induction encodeList bytes with
  | case1 => simp
  | case2 a =>
      have ha := a.toNat_lt
      simp only [List.forall_mem_cons, List.not_mem_nil, false_implies, implies_true, and_true]
      exact ⟨digits _ (by omega), digits _ (by omega), pad, pad⟩
  | case3 a b =>
      have ha := a.toNat_lt
      have hb := b.toNat_lt
      simp only [List.forall_mem_cons, List.not_mem_nil, false_implies, implies_true, and_true]
      exact ⟨digits _ (by omega), digits _ (by omega), digits _ (by omega), pad⟩
  | case4 a b c rest ih =>
      have ha := a.toNat_lt
      have hb := b.toNat_lt
      have hc := c.toNat_lt
      simp only [List.forall_mem_cons]
      exact ⟨digits _ (by omega), digits _ (by omega), digits _ (by omega), digits _ (by omega), ih⟩

/-! ## Decoding -/

/-- Four sextets make three bytes; what the last group lacks, its bytes lack too. -/
def decodeValues : List ℕ → List UInt8
  | w :: x :: y :: z :: rest =>
    .ofNat (w * 4 + x / 16) :: .ofNat (x % 16 * 16 + y / 4) :: .ofNat (y % 4 * 64 + z) ::
      decodeValues rest
  | [w, x, y] => [.ofNat (w * 4 + x / 16), .ofNat (x % 16 * 16 + y / 4)]
  | [w, x] => [.ofNat (w * 4 + x / 16)]
  | [_] | [] => []

def decode (text : String) : List UInt8 := decodeValues (text.toList.filterMap value?)

theorem ofNat_eq {n : ℕ} {a : UInt8} (h : n = a.toNat) : UInt8.ofNat n = a := by
  rw [h, UInt8.ofNat_toNat]

theorem decodeValues_encodeList (bytes : List UInt8) :
    decodeValues ((encodeList bytes).filterMap value?) = bytes := by
  fun_induction encodeList bytes with
  | case1 => rfl
  | case2 a =>
      have ha := a.toNat_lt
      rw [List.filterMap_cons_some (value?_digit (by omega)),
        List.filterMap_cons_some (value?_digit (by omega))]
      simp only [List.filterMap_cons_none value?_pad, List.filterMap_nil, decodeValues]
      rw [ofNat_eq (a := a) (by omega)]
  | case3 a b =>
      have ha := a.toNat_lt
      have hb := b.toNat_lt
      rw [List.filterMap_cons_some (value?_digit (by omega)),
        List.filterMap_cons_some (value?_digit (by omega)),
        List.filterMap_cons_some (value?_digit (by omega))]
      simp only [List.filterMap_cons_none value?_pad, List.filterMap_nil, decodeValues]
      rw [ofNat_eq (a := a) (by omega), ofNat_eq (a := b) (by omega)]
  | case4 a b c rest ih =>
      have ha := a.toNat_lt
      have hb := b.toNat_lt
      have hc := c.toNat_lt
      rw [List.filterMap_cons_some (value?_digit (by omega)),
        List.filterMap_cons_some (value?_digit (by omega)),
        List.filterMap_cons_some (value?_digit (by omega)),
        List.filterMap_cons_some (value?_digit (by omega)), decodeValues, ih]
      rw [ofNat_eq (a := a) (by omega), ofNat_eq (a := b) (by omega),
        ofNat_eq (a := c) (by omega)]

theorem decode_encode (bytes : List UInt8) : decode (encode bytes) = bytes := by
  rw [decode, encode, String.toList_ofList, decodeValues_encodeList]

theorem encode_injective : Function.Injective encode :=
  Function.LeftInverse.injective decode_encode

/-- A text that is the encoding of what it decodes to. -/
def Canonical (text : String) : Prop := encode (decode text) = text

instance (text : String) : Decidable (Canonical text) :=
  inferInstanceAs (Decidable (encode (decode text) = text))

theorem canonical_encode (bytes : List UInt8) : Canonical (encode bytes) := by
  rw [Canonical, decode_encode]

/-- Without padding the bytes come in threes. -/
theorem length_encodeList_unpadded {bytes : List UInt8} (unpadded : '=' ∉ encodeList bytes) :
    3 * (encodeList bytes).length = 4 * bytes.length := by
  fun_induction encodeList bytes with
  | case1 => rfl
  | case2 a => simp at unpadded
  | case3 a b => simp at unpadded
  | case4 a b c rest ih =>
      simp only [List.mem_cons, not_or] at unpadded
      have tail := ih unpadded.2.2.2.2
      simp only [List.length_cons]
      omega

/-! ## What is lost -/

/-- The digits of an encoding. -/
def sextets : List UInt8 → List ℕ
  | [] => []
  | [a] => [a.toNat / 4, a.toNat % 4 * 16]
  | [a, b] => [a.toNat / 4, a.toNat % 4 * 16 + b.toNat / 16, b.toNat % 16 * 4]
  | a :: b :: c :: rest =>
    a.toNat / 4 :: (a.toNat % 4 * 16 + b.toNat / 16) :: (b.toNat % 16 * 4 + c.toNat / 64) ::
      c.toNat % 64 :: sextets rest

/-- The last group is no lone digit, and the bits of it that make no byte are zero. -/
def NoSpareBits : List ℕ → Prop
  | _ :: _ :: _ :: _ :: rest => NoSpareBits rest
  | [_, _, y] => y % 4 = 0
  | [_, x] => x % 16 = 0
  | [_] => False
  | [] => True

def decidableNoSpareBits : (values : List ℕ) → Decidable (NoSpareBits values)
  | _ :: _ :: _ :: _ :: rest => decidableNoSpareBits rest
  | [_, _, y] => inferInstanceAs (Decidable (y % 4 = 0))
  | [_, x] => inferInstanceAs (Decidable (x % 16 = 0))
  | [_] => inferInstanceAs (Decidable False)
  | [] => inferInstanceAs (Decidable True)

instance (values : List ℕ) : Decidable (NoSpareBits values) := decidableNoSpareBits values

/-- A text without the padding at its end. -/
def unpad (text : List Char) : List Char := text.rdropWhile (· == '=')

theorem sextets_lt (bytes : List UInt8) : ∀ v ∈ sextets bytes, v < 64 := by
  fun_induction sextets bytes with
  | case1 => simp
  | case2 a =>
      have ha := a.toNat_lt
      simp only [List.forall_mem_cons, List.not_mem_nil, false_implies, implies_true, and_true]
      omega
  | case3 a b =>
      have ha := a.toNat_lt
      have hb := b.toNat_lt
      simp only [List.forall_mem_cons, List.not_mem_nil, false_implies, implies_true, and_true]
      omega
  | case4 a b c rest ih =>
      have ha := a.toNat_lt
      have hb := b.toNat_lt
      have hc := c.toNat_lt
      simp only [List.forall_mem_cons]
      exact ⟨by omega, by omega, by omega, by omega, ih⟩

/-- Only the spare bits of a list of digits are lost. -/
theorem sextets_decodeValues_iff {values : List ℕ} (small : ∀ v ∈ values, v < 64) :
    sextets (decodeValues values) = values ↔ NoSpareBits values := by
  fun_induction decodeValues values with
  | case1 w x y z rest ih =>
      simp only [List.forall_mem_cons] at small
      obtain ⟨hw, hx, hy, hz, tail⟩ := small
      have first : (w * 4 + x / 16) % 2 ^ 8 = w * 4 + x / 16 := by omega
      have second : (x % 16 * 16 + y / 4) % 2 ^ 8 = x % 16 * 16 + y / 4 := by omega
      have third : (y % 4 * 64 + z) % 2 ^ 8 = y % 4 * 64 + z := by omega
      have back : (w * 4 + x / 16) / 4 = w ∧
          (w * 4 + x / 16) % 4 * 16 + (x % 16 * 16 + y / 4) / 16 = x ∧
          (x % 16 * 16 + y / 4) % 16 * 4 + (y % 4 * 64 + z) / 64 = y ∧
          (y % 4 * 64 + z) % 64 = z := by omega
      simp only [sextets, UInt8.toNat_ofNat', first, second, third, List.cons.injEq, ih tail,
        NoSpareBits, back, true_and]
  | case2 w x y =>
      simp only [List.forall_mem_cons] at small
      simp only [sextets, UInt8.toNat_ofNat', List.cons.injEq, NoSpareBits, and_true]
      omega
  | case3 w x =>
      simp only [List.forall_mem_cons] at small
      simp only [sextets, UInt8.toNat_ofNat', List.cons.injEq, NoSpareBits, and_true]
      omega
  | case4 w => simp [sextets, NoSpareBits]
  | case5 => simp [sextets, NoSpareBits]

theorem digit_ne_pad {n : ℕ} (h : n < 64) : digit n ≠ '=' := by
  intro pad
  have read := value?_digit h
  rw [pad, value?_pad] at read
  cases read

theorem unpad_append_replicate {text : List Char} (digits : '=' ∉ text) (n : ℕ) :
    unpad (text ++ List.replicate n '=') = text := by
  induction n with
  | zero =>
      rw [List.replicate_zero, List.append_nil, unpad, List.rdropWhile_eq_self_iff]
      intro nonempty pad
      exact digits (beq_iff_eq.mp pad ▸ List.getLast_mem nonempty)
  | succ n ih =>
      rw [List.replicate_succ', ← List.append_assoc, unpad, List.rdropWhile_concat_pos _ _ _ rfl]
      exact ih

theorem eq_unpad_append (text : List Char) : ∃ n, text = unpad text ++ List.replicate n '=' := by
  have pads : text.rtakeWhile (· == '=') =
      List.replicate (text.rtakeWhile (· == '=')).length '=' := by
    refine List.eq_replicate_of_mem fun c mem => ?_
    have pad := List.mem_rtakeWhile_imp (p := (· == '=')) mem
    exact beq_iff_eq.mp pad
  refine ⟨(text.rtakeWhile (· == '=')).length, ?_⟩
  rw [← pads, unpad, List.rdropWhile_append_rtakeWhile]

/-- An encoding is its digits and the padding. -/
theorem encodeList_eq (bytes : List UInt8) :
    ∃ n ≤ 2, encodeList bytes = (sextets bytes).map digit ++ List.replicate n '=' := by
  fun_induction encodeList bytes with
  | case1 => exact ⟨0, by decide, rfl⟩
  | case2 a => exact ⟨2, by decide, rfl⟩
  | case3 a b => exact ⟨1, by decide, rfl⟩
  | case4 a b c rest ih =>
      obtain ⟨n, few, padded⟩ := ih
      exact ⟨n, few, by rw [padded]; rfl⟩

theorem unpad_encodeList (bytes : List UInt8) :
    unpad (encodeList bytes) = (sextets bytes).map digit := by
  obtain ⟨n, _, padded⟩ := encodeList_eq bytes
  rw [padded, unpad_append_replicate]
  intro mem
  obtain ⟨v, member, pad⟩ := List.mem_map.mp mem
  exact digit_ne_pad (sextets_lt bytes v member) pad

theorem value?_lt {c : Char} {v : ℕ} (h : value? c = some v) : v < 64 := by
  unfold value? at h
  split_ifs at h
  · cases h
    decide
  · cases h
    decide
  · obtain ⟨lt, _⟩ := List.findIdx?_eq_some_iff_getElem.mp h
    exact lt

theorem mem_alphabet_iff (c : Char) : c ∈ alphabet ↔ ∃ n < 64, digit n = c := by
  have length : alphabet.length = 64 := by decide +kernel
  have entry {n : ℕ} (h : n < alphabet.length) : digit n = alphabet[n] := by
    rw [digit, List.getD_eq_getElem?_getD, List.getElem?_eq_getElem h, Option.getD_some]
  rw [List.mem_iff_getElem]
  constructor
  · rintro ⟨n, h, rfl⟩
    exact ⟨n, by omega, entry h⟩
  · rintro ⟨n, small, rfl⟩
    have h : n < alphabet.length := by omega
    exact ⟨n, h, (entry h).symm⟩

/-- The values of digits of the standard alphabet give the digits back. -/
theorem map_digit_filterMap {text : List Char} (standard : ∀ c ∈ text, c ∈ alphabet) :
    (text.filterMap value?).map digit = text := by
  induction text with
  | nil => rfl
  | cons c text ih =>
      obtain ⟨first, rest⟩ := List.forall_mem_cons.mp standard
      obtain ⟨n, small, rfl⟩ := (mem_alphabet_iff c).mp first
      rw [List.filterMap_cons_some (value?_digit small), List.map_cons, ih rest]

theorem filterMap_map_digit {values : List ℕ} (small : ∀ v ∈ values, v < 64) :
    (values.map digit).filterMap value? = values := by
  induction values with
  | nil => rfl
  | cons v values ih =>
      obtain ⟨first, rest⟩ := List.forall_mem_cons.mp small
      rw [List.map_cons, List.filterMap_cons_some (value?_digit first), ih rest]

/-- Padding is skipped. -/
theorem filterMap_unpad (text : List Char) :
    (unpad text).filterMap value? = text.filterMap value? := by
  induction text using List.reverseRecOn with
  | nil => rfl
  | append_singleton text c ih =>
      by_cases pad : c = '='
      · subst pad
        rw [unpad, List.rdropWhile_concat_pos _ _ _ rfl, ← unpad, ih, List.filterMap_append]
        simp
      · rw [unpad, List.rdropWhile_concat_neg _ _ _ (by simpa using pad)]

/-- A text is kept, up to its padding, when it has digits of the standard alphabet only and no
spare bits. -/
theorem decode_canonical_iff (text : List Char) :
    unpad (encodeList (decodeValues (text.filterMap value?))) = unpad text ↔
      (∀ c ∈ unpad text, c ∈ alphabet) ∧ NoSpareBits (text.filterMap value?) := by
  have small : ∀ v ∈ text.filterMap value?, v < 64 := by
    intro v mem
    obtain ⟨c, _, read⟩ := List.mem_filterMap.mp mem
    exact value?_lt read
  rw [unpad_encodeList, ← sextets_decodeValues_iff small]
  constructor
  · intro kept
    refine ⟨fun c mem => ?_, ?_⟩
    · rw [← kept] at mem
      obtain ⟨v, member, rfl⟩ := List.mem_map.mp mem
      exact (mem_alphabet_iff _).mpr ⟨v, sextets_lt _ v member, rfl⟩
    · conv_rhs => rw [← filterMap_unpad, ← kept, filterMap_map_digit (sextets_lt _)]
  · rintro ⟨standard, kept⟩
    rw [kept, ← filterMap_unpad, map_digit_filterMap standard]

/-! ## The bits of an encoding -/

/-- The digits are the bits, six at a time, with zeros behind them in the last one. -/
theorem bits_sextets (bytes : List UInt8) :
    ∃ spare : List Bool, spare.length < 6 ∧ (∀ b ∈ spare, b = false) ∧
      (sextets bytes).flatMap (Bits.bits 6) =
        bytes.flatMap (fun b => Bits.bits 8 b.toNat) ++ spare := by
  fun_induction sextets bytes with
  | case1 => exact ⟨[], by decide, by simp, rfl⟩
  | case2 a =>
      have ha := a.toNat_lt
      have whole := Bits.bits_mul_add 6 6 (a.toNat / 4) (show a.toNat % 4 * 16 < 2 ^ 6 by omega)
      have parts := Bits.bits_mul_add 8 4 a.toNat (show 0 < 2 ^ 4 by decide)
      rw [show a.toNat / 4 * 2 ^ 6 + a.toNat % 4 * 16 = a.toNat * 2 ^ 4 + 0 by omega] at whole
      refine ⟨Bits.bits 4 0, by decide, Bits.bits_zero 4, ?_⟩
      simpa using whole.symm.trans parts
  | case3 a b =>
      have ha := a.toNat_lt
      have hb := b.toNat_lt
      have tail := Bits.bits_mul_add 6 6 (a.toNat % 4 * 16 + b.toNat / 16)
        (show b.toNat % 16 * 4 < 2 ^ 6 by omega)
      have whole := Bits.bits_mul_add 6 12 (a.toNat / 4)
        (show (a.toNat % 4 * 16 + b.toNat / 16) * 2 ^ 6 + b.toNat % 16 * 4 < 2 ^ 12 by omega)
      have last := Bits.bits_mul_add 8 2 b.toNat (show 0 < 2 ^ 2 by decide)
      have parts := Bits.bits_mul_add 8 10 a.toNat (show b.toNat * 2 ^ 2 + 0 < 2 ^ 10 by omega)
      rw [tail, show a.toNat / 4 * 2 ^ 12 +
        ((a.toNat % 4 * 16 + b.toNat / 16) * 2 ^ 6 + b.toNat % 16 * 4) =
        a.toNat * 2 ^ 10 + (b.toNat * 2 ^ 2 + 0) by omega] at whole
      rw [last] at parts
      refine ⟨Bits.bits 2 0, by decide, Bits.bits_zero 2, ?_⟩
      simpa using whole.symm.trans parts
  | case4 a b c rest ih =>
      have ha := a.toNat_lt
      have hb := b.toNat_lt
      have hc := c.toNat_lt
      obtain ⟨spare, short, zero, regrouped⟩ := ih
      have third := Bits.bits_mul_add 6 6 (b.toNat % 16 * 4 + c.toNat / 64)
        (show c.toNat % 64 < 2 ^ 6 by omega)
      have tail := Bits.bits_mul_add 6 12 (a.toNat % 4 * 16 + b.toNat / 16)
        (show (b.toNat % 16 * 4 + c.toNat / 64) * 2 ^ 6 + c.toNat % 64 < 2 ^ 12 by omega)
      have whole := Bits.bits_mul_add 6 18 (a.toNat / 4)
        (show (a.toNat % 4 * 16 + b.toNat / 16) * 2 ^ 12 +
          ((b.toNat % 16 * 4 + c.toNat / 64) * 2 ^ 6 + c.toNat % 64) < 2 ^ 18 by omega)
      have last := Bits.bits_mul_add 8 8 b.toNat (show c.toNat < 2 ^ 8 by omega)
      have parts := Bits.bits_mul_add 8 16 a.toNat
        (show b.toNat * 2 ^ 8 + c.toNat < 2 ^ 16 by omega)
      rw [tail, third, show a.toNat / 4 * 2 ^ 18 +
        ((a.toNat % 4 * 16 + b.toNat / 16) * 2 ^ 12 +
          ((b.toNat % 16 * 4 + c.toNat / 64) * 2 ^ 6 + c.toNat % 64)) =
        a.toNat * 2 ^ 16 + (b.toNat * 2 ^ 8 + c.toNat) by omega] at whole
      rw [last] at parts
      refine ⟨spare, short, zero, ?_⟩
      have group := whole.symm.trans parts
      simp only [List.flatMap_cons, regrouped, List.append_assoc] at group ⊢
      simp only [← List.append_assoc] at group ⊢
      rw [group]

theorem length_encodeList (bytes : List UInt8) :
    (encodeList bytes).length = 4 * ((bytes.length + 2) / 3) := by
  fun_induction encodeList bytes with
  | case1 => rfl
  | case2 a => simp
  | case3 a b => simp
  | case4 a b c rest ih =>
      simp only [List.length_cons, ih]
      omega

/-- The text has the bits of the bytes, six in a digit, zeros where the last digit has no bit for
it, and padding to a multiple of four characters. -/
def IsEncoding (bytes : List UInt8) (text : List Char) : Prop :=
  ∃ (digits : List ℕ) (spare : List Bool) (pads : ℕ),
    text = digits.map digit ++ List.replicate pads '=' ∧
    (∀ v ∈ digits, v < 64) ∧ spare.length < 6 ∧ (∀ b ∈ spare, b = false) ∧
    digits.flatMap (Bits.bits 6) = bytes.flatMap (fun b => Bits.bits 8 b.toNat) ++ spare ∧
    pads < 4 ∧ text.length % 4 = 0

theorem isEncoding_encodeList (bytes : List UInt8) : IsEncoding bytes (encodeList bytes) := by
  obtain ⟨pads, few, padded⟩ := encodeList_eq bytes
  obtain ⟨spare, short, zero, bits⟩ := bits_sextets bytes
  refine ⟨sextets bytes, spare, pads, padded, sextets_lt bytes, short, zero, bits, by omega, ?_⟩
  rw [length_encodeList, Nat.mul_mod_right]

end Base64
