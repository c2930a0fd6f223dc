import MaanyMpc.Coordinator.RnBase64

/-! # Base64 of the device, over every string

What `fromBase64` makes of white space and of `=`, over the code units of a string, among which
there may be a surrogate on its own. -/

namespace MaanyMpc

/-! ## Code units -/

def isJsSpaceUnit (unit : ℕ) : Bool :=
  unit ∈ [0x9, 0xa, 0xb, 0xc, 0xd, 0x20, 0xa0, 0x1680, 0x2028, 0x2029, 0x202f, 0x205f,
    0x3000, 0xfeff] || (0x2000 ≤ unit && unit ≤ 0x200a)

/-- `value.replace(/\s+/g, '')`. -/
def cleanUnits (value : List ℕ) : List ℕ := value.filter fun unit => !isJsSpaceUnit unit

@[simp] theorem cleanUnits_cleanUnits (value : List ℕ) :
    cleanUnits (cleanUnits value) = cleanUnits value := by
  simp [cleanUnits]

/-- `fromBase64` of a string with these code units. -/
def fromBase64Units (value : List ℕ) : Except JsError Bytes :=
  let clean := cleanUnits value
  let len := clean.length
  if len = 0 then .ok []
  else if len % 4 ≠ 0 then .error (.error "Invalid base64 string")
  else decodeQuads (len / 4 * 3 - paddingLength clean) clean

/-- No half of a surrogate pair is white space. -/
theorem isJsSpaceUnit_surrogate {unit : ℕ} (low : 0xd800 ≤ unit) (high : unit < 0xe000) :
    isJsSpaceUnit unit = false := by
  simp only [isJsSpaceUnit, List.mem_cons, List.not_mem_nil, or_false, Bool.or_eq_false_iff,
    decide_eq_false_iff_not, Bool.and_eq_false_iff]
  omega

/-- Beyond the first plane nothing is white space. -/
theorem isJsSpace_of_large {c : Char} (large : 0x10000 ≤ c.toNat) : isJsSpace c = false := by
  simp only [isJsSpace, List.mem_cons, List.not_mem_nil, or_false, Bool.or_eq_false_iff,
    decide_eq_false_iff_not, Bool.and_eq_false_iff]
  omega

/-- White space can be dropped before or after a string is taken apart. -/
theorem cleanUnits_utf16 (value : String) :
    cleanUnits (utf16 value) =
      utf16 (String.ofList (value.toList.filter fun c => !isJsSpace c)) := by
  simp only [cleanUnits, utf16, String.toList_ofList]
  induction value.toList with
  | nil => rfl
  | cons c cs ih =>
      rw [List.flatMap_cons, List.filter_append, ih, List.filter_cons]
      by_cases small : c.toNat < 0x10000
      · have same : isJsSpaceUnit c.toNat = isJsSpace c := rfl
        cases space : isJsSpace c <;> simp [same, space, small]
      · have bound : c.toNat < 0x110000 := by
          rcases c.valid with low | high
          · exact Nat.lt_trans low (by decide)
          · exact high.2
        have high := isJsSpaceUnit_surrogate
          (show 0xd800 ≤ 0xd800 + (c.toNat - 0x10000) / 0x400 by omega) (by omega)
        have low := isJsSpaceUnit_surrogate
          (show 0xd800 ≤ 0xdc00 + (c.toNat - 0x10000) % 0x400 by omega) (by omega)
        simp [isJsSpace_of_large (Nat.not_lt.mp small), small, high, low]

theorem fromBase64_eq_units (value : String) :
    fromBase64 value = fromBase64Units (utf16 value) := by
  rw [fromBase64, fromBase64Units, cleanUnits_utf16]

/-! ## What is read -/

/-- The code of a character of the alphabet. -/
def IsDigitUnit (unit : ℕ) : Prop := ∃ c ∈ Base64.alphabet, c.toNat = unit

theorem decodeChar_ok_iff (unit : ℕ) :
    (∃ index, decodeChar unit = .ok index) ↔ IsDigitUnit unit := by
  unfold decodeChar
  cases found : Base64.alphabet.findIdx? fun c => c.toNat == unit with
  | some index =>
      have digit := @List.findIdx?_isSome _ Base64.alphabet fun c => c.toNat == unit
      rw [found] at digit
      simpa [IsDigitUnit] using digit
  | none =>
      rw [List.findIdx?_eq_none_iff] at found
      simpa [IsDigitUnit] using found

theorem decodePadded_ok_iff (unit : ℕ) :
    (∃ index, decodePadded unit = .ok index) ↔ IsDigitUnit unit ∨ unit = 61 := by
  rw [decodePadded, ← decodeChar_ok_iff]
  split_ifs with pad
  · simp [pad]
  · simp [pad]

theorem decodeQuad_ok_iff (a b c d : ℕ) :
    (∃ chunk, decodeQuad a b c d = .ok chunk) ↔ IsDigitUnit a ∧ IsDigitUnit b ∧
      (IsDigitUnit c ∨ c = 61) ∧ (IsDigitUnit d ∨ d = 61) := by
  rw [← decodeChar_ok_iff, ← decodeChar_ok_iff, ← decodePadded_ok_iff, ← decodePadded_ok_iff]
  cases ha : decodeChar a <;> cases hb : decodeChar b <;> cases hc : decodePadded c <;>
    cases hd : decodePadded d <;>
      simp [decodeQuad, ha, hb, hc, hd, bind, Except.bind, pure, Except.pure]

/-- Quads of characters of the alphabet, but that `=` may stand for the third or the fourth. -/
def Readable (clean : List ℕ) : Prop :=
  clean.length % 4 = 0 ∧
    ∀ i unit, clean[i]? = some unit → IsDigitUnit unit ∨ unit = 61 ∧ 2 ≤ i % 4

theorem readable_cons_iff {a b c d : ℕ} {rest : List ℕ} :
    Readable (a :: b :: c :: d :: rest) ↔ (IsDigitUnit a ∧ IsDigitUnit b ∧
      (IsDigitUnit c ∨ c = 61) ∧ (IsDigitUnit d ∨ d = 61)) ∧ Readable rest := by
  have quads : (a :: b :: c :: d :: rest).length % 4 = 0 ↔ rest.length % 4 = 0 := by
    simp only [List.length_cons]
    omega
  have places : (∀ i unit, (a :: b :: c :: d :: rest)[i]? = some unit →
      IsDigitUnit unit ∨ unit = 61 ∧ 2 ≤ i % 4) ↔ (IsDigitUnit a ∧ IsDigitUnit b ∧
        (IsDigitUnit c ∨ c = 61) ∧ (IsDigitUnit d ∨ d = 61)) ∧
      ∀ i unit, rest[i]? = some unit → IsDigitUnit unit ∨ unit = 61 ∧ 2 ≤ i % 4 := by
    constructor
    · intro all
      refine ⟨⟨?_, ?_, ?_, ?_⟩, fun i unit at_i => ?_⟩
      · simpa using all 0 a rfl
      · simpa using all 1 b rfl
      · simpa using all 2 c rfl
      · simpa using all 3 d rfl
      · simpa using all (i + 4) unit at_i
    · rintro ⟨⟨ha, hb, hc, hd⟩, all⟩ i unit at_i
      match i, at_i with
      | 0, rfl => exact .inl ha
      | 1, rfl => exact .inl hb
      | 2, rfl => simpa using hc
      | 3, rfl => simpa using hd
      | i + 4, at_i => simpa using all i unit at_i
  rw [Readable, quads, places, Readable, and_left_comm]

/-- The quads are read one by one. -/
theorem decodeQuads_ok_iff (room : ℕ) {clean : List ℕ} (quads : clean.length % 4 = 0) :
    (∃ bytes, decodeQuads room clean = .ok bytes) ↔ Readable clean := by
  fun_induction decodeQuads room clean with
  | case1 room a b c d rest ih =>
      have tail : rest.length % 4 = 0 := by
        simp only [List.length_cons] at quads
        omega
      rw [readable_cons_iff, ← decodeQuad_ok_iff, ← ih tail]
      simp only [Fallible.bind_eq_ok]
      constructor
      · rintro ⟨_, chunk, read, bytes, later, _⟩
        exact ⟨⟨chunk, read⟩, bytes, later⟩
      · rintro ⟨⟨chunk, read⟩, bytes, later⟩
        exact ⟨_, chunk, read, bytes, later, rfl⟩
  | case2 clean _ short =>
      match clean, short, quads with
      | [], _, _ => simp [Readable]
      | a :: b :: c :: d :: rest, short, _ => exact (short a b c d rest rfl).elim

/-- `fromBase64` throws or not. -/
theorem fromBase64Units_cases (value : List ℕ) :
    (∃ bytes, fromBase64Units value = .ok bytes) ∧ Readable (cleanUnits value) ∨
      (∃ err, fromBase64Units value = .error err) ∧ ¬ Readable (cleanUnits value) := by
  simp only [fromBase64Units]
  split_ifs with empty odd
  · rw [List.length_eq_zero_iff] at empty
    exact .inl ⟨⟨[], rfl⟩, by simp [Readable, empty]⟩
  · exact .inr ⟨⟨_, rfl⟩, fun readable => odd readable.1⟩
  · rw [← decodeQuads_ok_iff ((cleanUnits value).length / 4 * 3 - paddingLength (cleanUnits value))
      (not_not.mp odd)]
    cases decodeQuads ((cleanUnits value).length / 4 * 3 - paddingLength (cleanUnits value))
      (cleanUnits value) with
    | ok bytes => exact .inl ⟨⟨bytes, rfl⟩, bytes, rfl⟩
    | error err => exact .inr ⟨⟨err, rfl⟩, by simp⟩

/-! ## Padding -/

/-- Quads of characters of the alphabet, but that the last one or two may be `=`. -/
def Padded (clean : List ℕ) : Prop :=
  clean.length % 4 = 0 ∧ ∃ digits n, n ≤ 2 ∧ clean = digits ++ List.replicate n 61 ∧
    ∀ unit ∈ digits, IsDigitUnit unit

/-- Behind `=` there is nothing but `=`. -/
def PaddingLast (clean : List ℕ) : Prop :=
  ∃ digits n, clean = digits ++ List.replicate n 61 ∧ 61 ∉ digits

theorem not_isDigitUnit_pad : ¬ IsDigitUnit 61 := by
  have table : ∀ c ∈ Base64.alphabet, c.toNat ≠ 61 :=
    List.forall_iff_forall_mem.mp (by decide +kernel)
  rintro ⟨c, mem, pad⟩
  exact table c mem pad

theorem padded_iff (clean : List ℕ) : Padded clean ↔ Readable clean ∧ PaddingLast clean := by
  constructor
  · rintro ⟨quads, digits, n, few, rfl, alphabet⟩
    refine ⟨⟨quads, fun i unit at_i => ?_⟩, digits, n, rfl, fun pad =>
      not_isDigitUnit_pad (alphabet 61 pad)⟩
    obtain ⟨inside, _⟩ := List.getElem?_eq_some_iff.mp at_i
    rw [List.length_append, List.length_replicate] at quads inside
    by_cases front : i < digits.length
    · rw [List.getElem?_append_left front] at at_i
      exact .inl (alphabet unit (List.mem_of_getElem? at_i))
    · rw [List.getElem?_append_right (Nat.not_lt.mp front)] at at_i
      exact .inr ⟨List.eq_of_mem_replicate (List.mem_of_getElem? at_i), by omega⟩
  · rintro ⟨⟨quads, readable⟩, digits, n, rfl, unpadded⟩
    refine ⟨quads, digits, n, ?_, rfl, fun unit mem => ?_⟩
    · by_contra many
      have third : (digits ++ List.replicate n 61)[digits.length + n - 3]? = some 61 := by
        rw [List.getElem?_append_right (by omega), List.getElem?_replicate_of_lt (by omega)]
      rw [List.length_append, List.length_replicate] at quads
      rcases readable _ _ third with digit | ⟨_, place⟩
      · exact not_isDigitUnit_pad digit
      · omega
    · obtain ⟨i, at_i⟩ := List.getElem?_of_mem mem
      obtain ⟨inside, _⟩ := List.getElem?_eq_some_iff.mp at_i
      have whole : (digits ++ List.replicate n 61)[i]? = some unit := by
        rw [List.getElem?_append_left inside, at_i]
      rcases readable i unit whole with digit | ⟨rfl, _⟩
      · exact digit
      · exact (unpadded mem).elim

/-- A string is read if it is padded base64, and refused otherwise. -/
def AcceptsExactly (value : List ℕ) : Prop :=
  (Padded (cleanUnits value) → ∃ bytes, fromBase64Units value = .ok bytes) ∧
    (¬ Padded (cleanUnits value) → ∃ err, fromBase64Units value = .error err)

/-- What is wrongly read are readable quads with `=` before something else. -/
theorem accepts_exactly_iff (value : List ℕ) :
    (∀ text, utf16 text = value → fromBase64 text = fromBase64Units value) ∧
    (AcceptsExactly value ↔ (Readable (cleanUnits value) → PaddingLast (cleanUnits value))) := by
  refine ⟨fun text same => by rw [fromBase64_eq_units, same], ?_⟩
  rw [AcceptsExactly, padded_iff]
  rcases fromBase64Units_cases value with ⟨⟨bytes, read⟩, readable⟩ | ⟨⟨err, refused⟩, unreadable⟩
  · simp [read, readable]
  · simp [refused, unreadable]

/-- Four characters with padding in the third place, which make three bytes. -/
theorem inner_padding_accepted : ¬ ∀ value : String,
    (∃ bytes, fromBase64 value = .ok bytes) ↔ Padded (cleanUnits (utf16 value)) := by
  intro exact
  have units : cleanUnits (utf16 "AB=C") = [65, 66, 61, 67] := by decide +kernel
  have read : fromBase64 "AB=C" = .ok [0, 16, 2] := by decide +kernel
  have padded := (exact "AB=C").mp ⟨_, read⟩
  rw [units, padded_iff] at padded
  obtain ⟨_, digits, n, split, unpadded⟩ := padded
  cases n with
  | zero =>
      rw [List.replicate_zero, List.append_nil] at split
      exact unpadded (split ▸ by decide)
  | succ n =>
      have last := congrArg List.getLast? split
      simp [List.replicate_succ'] at last

/-! ## There and back -/

/-- A text of the encoding is read back, with white space anywhere in it. -/
theorem fromBase64Units_of_clean {bytes : Bytes} {value : List ℕ}
    (same : cleanUnits value = utf16 (toBase64 bytes)) : fromBase64Units value = .ok bytes := by
  have back := fromBase64_encode bytes
  have clean : cleanUnits (utf16 (toBase64 bytes)) = utf16 (toBase64 bytes) := by
    rw [← same, cleanUnits_cleanUnits]
  rw [← toBase64_eq_encode, fromBase64_eq_units, fromBase64Units, clean, ← same] at back
  exact back

/-- The codec of the device: its texts are those of the standard, and they are read back, also
with white space put into them. -/
theorem base64_round_trip (bytes : Bytes) :
    Base64.IsEncoding bytes (toBase64 bytes).toList ∧
      (toBase64 bytes).length = 4 * ((bytes.length + 2) / 3) ∧
      fromBase64 (toBase64 bytes) = .ok bytes ∧
      (∀ value : String, (value.toList.filter fun c => !isJsSpace c) = (toBase64 bytes).toList →
        fromBase64 value = .ok bytes) ∧
      ∀ value, cleanUnits value = utf16 (toBase64 bytes) → fromBase64Units value = .ok bytes := by
  have text : (toBase64 bytes).toList = Base64.encodeList bytes := by
    rw [toBase64_eq_encode, Base64.encode, String.toList_ofList]
  refine ⟨?_, ?_, ?_, fun value same => ?_, fun value => fromBase64Units_of_clean⟩
  · rw [text]
    exact Base64.isEncoding_encodeList bytes
  · rw [← String.length_toList, text, Base64.length_encodeList]
  · rw [toBase64_eq_encode, fromBase64_encode]
  · rw [fromBase64_eq_units]
    apply fromBase64Units_of_clean
    rw [cleanUnits_utf16, same, String.ofList_toList]

/-- Two bytes, on two lines. -/
theorem base64_round_trip_lines : fromBase64 " TW\nE= " = .ok [77, 97] :=
  (base64_round_trip [77, 97]).2.2.2.1 _ (by decide +kernel)

end MaanyMpc
