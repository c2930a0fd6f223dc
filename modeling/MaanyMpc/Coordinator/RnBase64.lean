import MaanyMpc.Coordinator.BackupShare

/-! # Base64 in coordinator-rn

`toBase64` and `fromBase64` are written out with shifts and masks. They are the encoding of the
library and a strict inverse of it. -/

namespace MaanyMpc

/-! ## Encoding -/

def encodeTriple (a b c : ℕ) : List Char :=
  let chunk := a <<< 16 ||| b <<< 8 ||| c
  [Base64.digit (chunk >>> 18 &&& 63), Base64.digit (chunk >>> 12 &&& 63),
    Base64.digit (chunk >>> 6 &&& 63), Base64.digit (chunk &&& 63)]

def encodePartial (a b padding : ℕ) : List Char :=
  let chunk := a <<< 16 ||| b <<< 8
  if padding = 2 then
    [Base64.digit (chunk >>> 18 &&& 63), Base64.digit (chunk >>> 12 &&& 63), '=', '=']
  else
    [Base64.digit (chunk >>> 18 &&& 63), Base64.digit (chunk >>> 12 &&& 63),
      Base64.digit (chunk >>> 6 &&& 63), '=']

def toBase64List : Bytes → List Char
  | a :: b :: c :: rest => encodeTriple a.toNat b.toNat c.toNat ++ toBase64List rest
  | [a] => encodePartial a.toNat 0 2
  | [a, b] => encodePartial a.toNat b.toNat 1
  | [] => []

def toBase64 (bytes : Bytes) : String := String.ofList (toBase64List bytes)

theorem chunk_eq {b c : ℕ} (a : ℕ) (hb : b < 256) (hc : c < 256) :
    a <<< 16 ||| b <<< 8 ||| c = a * 65536 + b * 256 + c := by
  have low : b <<< 8 ||| c = b <<< 8 + c := (Nat.shiftLeft_add_eq_or_of_lt hc b).symm
  have high : a <<< 16 ||| (b <<< 8 + c) = a <<< 16 + (b <<< 8 + c) := by
    refine (Nat.shiftLeft_add_eq_or_of_lt ?_ a).symm
    rw [Nat.shiftLeft_eq]
    omega
  rw [Nat.or_assoc, low, high, Nat.shiftLeft_eq, Nat.shiftLeft_eq]
  omega

theorem mask_eq (n shift : ℕ) : n >>> shift &&& 63 = n / 2 ^ shift % 64 := by
  rw [Nat.shiftRight_eq_div_pow, show 63 = 2 ^ 6 - 1 from rfl, Nat.and_two_pow_sub_one_eq_mod]

theorem encodeTriple_eq {a b c : ℕ} (ha : a < 256) (hb : b < 256) (hc : c < 256) :
    encodeTriple a b c = [Base64.digit (a / 4), Base64.digit (a % 4 * 16 + b / 16),
      Base64.digit (b % 16 * 4 + c / 64), Base64.digit (c % 64)] := by
  have last : (a * 65536 + b * 256 + c) &&& 63 = c % 64 := by
    rw [show 63 = 2 ^ 6 - 1 from rfl, Nat.and_two_pow_sub_one_eq_mod]
    omega
  simp only [encodeTriple, chunk_eq a hb hc, mask_eq, last, List.cons.injEq, and_true]
  exact ⟨congrArg _ (by omega), congrArg _ (by omega), congrArg _ (by omega)⟩

theorem encodePartial_one {a : ℕ} (ha : a < 256) :
    encodePartial a 0 2 = [Base64.digit (a / 4), Base64.digit (a % 4 * 16), '=', '='] := by
  have chunk := chunk_eq a (b := 0) (c := 0) (by omega) (by omega)
  rw [Nat.or_zero] at chunk
  simp only [encodePartial, chunk, mask_eq, if_true, List.cons.injEq, and_true]
  exact ⟨congrArg _ (by omega), congrArg _ (by omega)⟩

theorem encodePartial_two {a b : ℕ} (ha : a < 256) (hb : b < 256) :
    encodePartial a b 1 = [Base64.digit (a / 4), Base64.digit (a % 4 * 16 + b / 16),
      Base64.digit (b % 16 * 4), '='] := by
  have chunk := chunk_eq a (c := 0) hb (by omega)
  rw [Nat.or_zero] at chunk
  simp only [encodePartial, chunk, mask_eq, OfNat.one_ne_ofNat, if_false, List.cons.injEq,
    and_true]
  exact ⟨congrArg _ (by omega), congrArg _ (by omega), congrArg _ (by omega)⟩

theorem toBase64List_eq (bytes : Bytes) : toBase64List bytes = Base64.encodeList bytes := by
  fun_induction toBase64List bytes with
  | case1 a b c rest ih =>
      rw [encodeTriple_eq a.toNat_lt b.toNat_lt c.toNat_lt, ih, Base64.encodeList]
      rfl
  | case2 a => rw [encodePartial_one a.toNat_lt, Base64.encodeList]
  | case3 a b => rw [encodePartial_two a.toNat_lt b.toNat_lt, Base64.encodeList]
  | case4 => rfl

theorem toBase64_eq_encode (bytes : Bytes) : toBase64 bytes = Base64.encode bytes := by
  rw [toBase64, toBase64List_eq, Base64.encode]

/-! ## Decoding -/

/-- The index in the table of the character with this code. -/
def decodeChar (charCode : ℕ) : Except JsError ℕ :=
  match Base64.alphabet.findIdx? fun c => c.toNat == charCode with
  | some index => .ok index
  | none => .error (.error "Invalid base64 character")

/-- `c === 61 ? 0 : decodeChar(c)`, where 61 is the code of `=`. -/
def decodePadded (charCode : ℕ) : Except JsError ℕ :=
  if charCode = 61 then .ok 0 else decodeChar charCode

def decodeQuad (a b c d : ℕ) : Except JsError Bytes := do
  let sextetA ← decodeChar a
  let sextetB ← decodeChar b
  let sextetC ← decodePadded c
  let sextetD ← decodePadded d
  let triple := sextetA <<< 18 ||| sextetB <<< 12 ||| sextetC <<< 6 ||| sextetD
  return [.ofNat (triple >>> 16 &&& 255), .ofNat (triple >>> 8 &&& 255), .ofNat (triple &&& 255)]

/-- The loop of `fromBase64`, with the number of bytes that are still to be filled. -/
def decodeQuads (room : ℕ) : List ℕ → Except JsError Bytes
  | a :: b :: c :: d :: rest => do
    let chunk ← decodeQuad a b c d
    let byteCount := min 3 room
    let tail ← decodeQuads (room - byteCount) rest
    return chunk.take byteCount ++ tail
  | _ => .ok []

/-- `clean.endsWith('==') ? 2 : clean.endsWith('=') ? 1 : 0`. -/
def paddingLength (clean : List ℕ) : ℕ :=
  if [61, 61] <:+ clean then 2 else if [61] <:+ clean then 1 else 0

def fromBase64 (value : String) : Except JsError Bytes :=
  let clean := utf16 (String.ofList (value.toList.filter fun c => !isJsSpace c))
  let len := clean.length
  if len = 0 then .ok []
  else if len % 4 ≠ 0 then .error (.error "Invalid base64 string")
  else decodeQuads (len / 4 * 3 - paddingLength clean) clean

theorem decodeChar_digit {n : ℕ} (h : n < 64) : decodeChar (Base64.digit n).toNat = .ok n := by
  have table : ∀ i : Fin 64, (Base64.alphabet.findIdx? fun c =>
      c.toNat == (Base64.digit i).toNat) = some i.val := by decide +kernel
  rw [decodeChar, table ⟨n, h⟩]

theorem digit_facts {n : ℕ} (h : n < 64) : (Base64.digit n).toNat ≠ 61 ∧
    (Base64.digit n).toNat < 0x10000 ∧ isJsSpace (Base64.digit n) = false := by
  have table : ∀ i : Fin 64, (Base64.digit i).toNat ≠ 61 ∧
    0x20 < (Base64.digit i).toNat ∧ (Base64.digit i).toNat < 0xa0 := by decide +kernel
  obtain ⟨digit, low, high⟩ := table ⟨n, h⟩
  exact ⟨digit, high.trans (by decide), isJsSpace_eq_false low high⟩

theorem triple_eq {a b c d : ℕ} (hb : b < 64) (hc : c < 64) (hd : d < 64) :
    a <<< 18 ||| b <<< 12 ||| c <<< 6 ||| d = a * 2 ^ 18 + b * 2 ^ 12 + c * 2 ^ 6 + d := by
  have low : c <<< 6 ||| d = c <<< 6 + d := (Nat.shiftLeft_add_eq_or_of_lt hd c).symm
  have middle : b <<< 12 ||| (c <<< 6 + d) = b <<< 12 + (c <<< 6 + d) := by
    refine (Nat.shiftLeft_add_eq_or_of_lt ?_ b).symm
    rw [Nat.shiftLeft_eq]
    omega
  have high : a <<< 18 ||| (b <<< 12 + (c <<< 6 + d)) = a <<< 18 + (b <<< 12 + (c <<< 6 + d)) := by
    refine (Nat.shiftLeft_add_eq_or_of_lt ?_ a).symm
    rw [Nat.shiftLeft_eq, Nat.shiftLeft_eq]
    omega
  rw [Nat.or_assoc, Nat.or_assoc, low, middle, high]
  simp only [Nat.shiftLeft_eq]
  omega

theorem byte_eq (n shift : ℕ) : n >>> shift &&& 255 = n / 2 ^ shift % 256 := by
  rw [Nat.shiftRight_eq_div_pow, show 255 = 2 ^ 8 - 1 from rfl, Nat.and_two_pow_sub_one_eq_mod]

/-- The bytes of four sextets. -/
theorem decodeQuad_ok {a b c d w x y z : ℕ} (ha : decodeChar a = .ok w) (hb : decodeChar b = .ok x)
    (hc : decodePadded c = .ok y) (hd : decodePadded d = .ok z) (hw : w < 64) (hx : x < 64)
    (hy : y < 64) (hz : z < 64) :
    decodeQuad a b c d = .ok [.ofNat (w * 4 + x / 16), .ofNat (x % 16 * 16 + y / 4),
      .ofNat (y % 4 * 64 + z)] := by
  have first : (w * 2 ^ 18 + x * 2 ^ 12 + y * 2 ^ 6 + z) / 2 ^ 16 % 256 = w * 4 + x / 16 := by omega
  have second : (w * 2 ^ 18 + x * 2 ^ 12 + y * 2 ^ 6 + z) / 2 ^ 8 % 256 = x % 16 * 16 + y / 4 := by
    omega
  have third : (w * 2 ^ 18 + x * 2 ^ 12 + y * 2 ^ 6 + z) &&& 255 = y % 4 * 64 + z := by
    rw [show 255 = 2 ^ 8 - 1 from rfl, Nat.and_two_pow_sub_one_eq_mod]
    omega
  simp only [decodeQuad, ha, hb, hc, hd, bind, Except.bind, pure, Except.pure,
    triple_eq hx hy hz, byte_eq, first, second, third]

theorem decodePadded_digit {n : ℕ} (h : n < 64) : decodePadded (Base64.digit n).toNat = .ok n := by
  rw [decodePadded, if_neg (digit_facts h).1, decodeChar_digit h]

theorem decodeQuads_encodeList (bytes : Bytes) :
    decodeQuads bytes.length ((Base64.encodeList bytes).map Char.toNat) = .ok bytes := by
  fun_induction Base64.encodeList bytes with
  | case1 => rfl
  | case2 a =>
      have ha := a.toNat_lt
      have quad := decodeQuad_ok (decodeChar_digit (n := a.toNat / 4) (by omega))
        (decodeChar_digit (n := a.toNat % 4 * 16) (by omega))
        (show decodePadded '='.toNat = .ok 0 from rfl)
        (show decodePadded '='.toNat = .ok 0 from rfl)
        (by omega) (by omega) (by omega) (by omega)
      simp only [List.map_cons, List.map_nil, decodeQuads, quad]
      rw [Base64.ofNat_eq (a := a) (by omega)]
      rfl
  | case3 a b =>
      have ha := a.toNat_lt
      have hb := b.toNat_lt
      have quad := decodeQuad_ok (decodeChar_digit (n := a.toNat / 4) (by omega))
        (decodeChar_digit (n := a.toNat % 4 * 16 + b.toNat / 16) (by omega))
        (decodePadded_digit (n := b.toNat % 16 * 4) (by omega))
        (show decodePadded '='.toNat = .ok 0 from rfl)
        (by omega) (by omega) (by omega) (by omega)
      simp only [List.map_cons, List.map_nil, decodeQuads, quad]
      rw [Base64.ofNat_eq (a := a) (by omega), Base64.ofNat_eq (a := b) (by omega)]
      rfl
  | case4 a b c rest ih =>
      have ha := a.toNat_lt
      have hb := b.toNat_lt
      have hc := c.toNat_lt
      have quad := decodeQuad_ok (decodeChar_digit (n := a.toNat / 4) (by omega))
        (decodeChar_digit (n := a.toNat % 4 * 16 + b.toNat / 16) (by omega))
        (decodePadded_digit (n := b.toNat % 16 * 4 + c.toNat / 64) (by omega))
        (decodePadded_digit (n := c.toNat % 64) (by omega))
        (by omega) (by omega) (by omega) (by omega)
      have room : (a :: b :: c :: rest).length - min 3 (a :: b :: c :: rest).length =
          rest.length := by
        simp only [List.length_cons]
        omega
      simp only [List.map_cons, decodeQuads, quad, room, ih]
      rw [Base64.ofNat_eq (a := a) (by omega), Base64.ofNat_eq (a := b) (by omega),
        Base64.ofNat_eq (a := c) (by omega)]
      rfl

/-- Every character of an encoding is one code unit, and none is white space. -/
theorem clean_encode (bytes : Bytes) :
    utf16 (String.ofList ((Base64.encode bytes).toList.filter fun c => !isJsSpace c)) =
      (Base64.encodeList bytes).map Char.toNat := by
  have chars : ∀ c ∈ Base64.encodeList bytes, c.toNat < 0x10000 ∧ isJsSpace c = false :=
    Base64.forall_mem_encodeList (fun n h => (digit_facts h).2) ⟨by decide, by decide⟩ bytes
  have kept : (Base64.encodeList bytes).filter (fun c => !isJsSpace c) =
      Base64.encodeList bytes := by
    rw [List.filter_eq_self]
    intro c hc
    rw [(chars c hc).2]
    rfl
  rw [Base64.encode, String.toList_ofList, kept, utf16, String.toList_ofList, List.map_eq_flatMap]
  refine List.flatMap_congr fun c hc => ?_
  rw [if_pos (chars c hc).1]

theorem paddingLength_digit {n : ℕ} (h : n < 64) (rest : List ℕ) :
    paddingLength ((Base64.digit n).toNat :: rest) = paddingLength rest := by
  have digit := Ne.symm (digit_facts h).1
  simp [paddingLength, List.suffix_cons_iff, digit]

/-- The length of an encoding, in quads, makes room for the bytes and the padding. -/
theorem length_encodeList (bytes : Bytes) :
    (Base64.encodeList bytes).length % 4 = 0 ∧
      (Base64.encodeList bytes).length / 4 * 3 =
        bytes.length + paddingLength ((Base64.encodeList bytes).map Char.toNat) := by
  fun_induction Base64.encodeList bytes with
  | case1 => decide
  | case2 a =>
      have ha := a.toNat_lt
      simp only [List.map_cons, List.map_nil]
      rw [paddingLength_digit (by omega), paddingLength_digit (by omega),
        show paddingLength ['='.toNat, '='.toNat] = 2 by decide]
      simp
  | case3 a b =>
      have ha := a.toNat_lt
      have hb := b.toNat_lt
      simp only [List.map_cons, List.map_nil]
      rw [paddingLength_digit (by omega), paddingLength_digit (by omega),
        paddingLength_digit (by omega), show paddingLength ['='.toNat] = 1 by decide]
      simp
  | case4 a b c rest ih =>
      have ha := a.toNat_lt
      have hb := b.toNat_lt
      have hc := c.toNat_lt
      simp only [List.map_cons, List.length_cons]
      rw [paddingLength_digit (by omega), paddingLength_digit (by omega),
        paddingLength_digit (by omega), paddingLength_digit (by omega)]
      omega

theorem fromBase64_encode (bytes : Bytes) : fromBase64 (Base64.encode bytes) = .ok bytes := by
  obtain ⟨quads, room⟩ := length_encodeList bytes
  simp only [fromBase64, clean_encode, List.length_map]
  split_ifs with empty odd
  · have none : Base64.encodeList bytes = [] := List.length_eq_zero_iff.mp empty
    have bytes_nil := decodeQuads_encodeList bytes
    rw [none] at bytes_nil
    exact bytes_nil
  · exact absurd quads odd
  · rw [room, Nat.add_sub_cancel_right]
    exact decodeQuads_encodeList bytes

end MaanyMpc
