import MaanyMpc.Coordinator.Bytes
import MaanyMpc.Coordinator.Json
import MaanyMpc.Library.Base64

/-! # Strings into bytes

`String.prototype.trim` and `Buffer.from(text, encoding)`, with every encoding that Node
knows. A lenient decoder never throws; an unknown encoding does. -/

namespace MaanyMpc

/-- White space and line terminators. -/
def isJsSpace (c : Char) : Bool :=
  c.toNat ∈ [0x9, 0xa, 0xb, 0xc, 0xd, 0x20, 0xa0, 0x1680, 0x2028, 0x2029, 0x202f, 0x205f,
    0x3000, 0xfeff] || (0x2000 ≤ c.toNat && c.toNat ≤ 0x200a)

theorem isJsSpace_eq_false {c : Char} (low : 0x20 < c.toNat) (high : c.toNat < 0xa0) :
    isJsSpace c = false := by
  simp only [isJsSpace, List.mem_cons, List.not_mem_nil, or_false, Bool.or_eq_false_iff,
    decide_eq_false_iff_not, Bool.and_eq_false_iff]
  omega

def trimList (text : List Char) : List Char :=
  ((text.dropWhile isJsSpace).reverse.dropWhile isJsSpace).reverse

/-- `text.trim()`. -/
def trim (text : String) : String := String.ofList (trimList text.toList)

def hexValue? (c : Char) : Option ℕ :=
  if '0' ≤ c ∧ c ≤ '9' then some (c.toNat - 48)
  else if 'a' ≤ c ∧ c ≤ 'f' then some (c.toNat - 87)
  else if 'A' ≤ c ∧ c ≤ 'F' then some (c.toNat - 55)
  else none

theorem toNat_lt_of_hexValue? {c : Char} {v : ℕ} (h : hexValue? c = some v) : c.toNat < 128 := by
  unfold hexValue? at h
  split_ifs at h with digit lower upper
  · exact Nat.lt_of_le_of_lt digit.2 (by decide)
  · exact Nat.lt_of_le_of_lt lower.2 (by decide)
  · exact Nat.lt_of_le_of_lt upper.2 (by decide)

/-- Stops at the first pair that is not a byte. -/
def fromHexList : List Char → Bytes
  | high :: low :: rest =>
    match hexValue? high, hexValue? low with
    | some h, some l => .ofNat (16 * h + l) :: fromHexList rest
    | _, _ => []
  | _ => []

/-- The code units of a string. -/
def utf16 (text : String) : List ℕ :=
  text.toList.flatMap fun c =>
    if c.toNat < 0x10000 then [c.toNat]
    else [0xd800 + (c.toNat - 0x10000) / 0x400, 0xdc00 + (c.toNat - 0x10000) % 0x400]

/-- What the decoders of Node see of a string: the low byte of every code unit. -/
def lowBytes (text : String) : List Char := (utf16 text).map fun unit => Char.ofNat (unit % 256)

/-- `Buffer.from(text, 'hex')`. -/
def fromHex (text : String) : Bytes := fromHexList (lowBytes text)

/-- `Buffer.from(text, 'base64')`, which ends at the first `=` and skips what else is no digit. -/
def bufferFromBase64 (text : String) : Bytes :=
  Base64.decodeValues (((lowBytes text).takeWhile (· ≠ '=')).filterMap Base64.value?)

/-! ## Texts that Node reads as they are -/

theorem lowBytes_eq {text : String} (latin : ∀ c ∈ text.toList, c.toNat < 256) :
    lowBytes text = text.toList := by
  unfold lowBytes utf16
  generalize text.toList = chars at latin
  induction chars with
  | nil => rfl
  | cons c chars ih =>
      obtain ⟨first, rest⟩ := List.forall_mem_cons.mp latin
      rw [List.flatMap_cons, if_pos (by omega), List.singleton_append, List.map_cons, ih rest,
        Nat.mod_eq_of_lt first, Char.ofNat_toNat]

theorem takeWhile_digits {digits : List Char} (unpadded : '=' ∉ digits) (n : ℕ) :
    (digits ++ List.replicate n '=').takeWhile (· ≠ '=') = digits := by
  have kept : ∀ c ∈ digits, decide (c ≠ '=') = true := by
    intro c mem
    exact decide_eq_true fun pad => unpadded (pad ▸ mem)
  rw [List.takeWhile_append_of_pos kept]
  cases n with
  | zero => simp
  | succ n => simp [List.replicate_succ]

/-- Digits of the standard alphabet, and padding behind them. -/
theorem bufferFromBase64_eq_decode {text : String}
    (standard : ∀ c ∈ Base64.unpad text.toList, c ∈ Base64.alphabet) :
    bufferFromBase64 text = Base64.decode text := by
  have ascii : ∀ c ∈ Base64.alphabet, c.toNat < 256 ∧ c ≠ '=' := by
    have all : Base64.alphabet.all (fun c => c.toNat < 256 && c != '=') = true := by
      decide +kernel
    simpa using all
  obtain ⟨n, padded⟩ := Base64.eq_unpad_append text.toList
  have latin : ∀ c ∈ text.toList, c.toNat < 256 := by
    intro c mem
    rw [padded] at mem
    obtain digit | pad := List.mem_append.mp mem
    · exact (ascii c (standard c digit)).1
    · rw [List.eq_of_mem_replicate pad]
      decide
  have digits : (text.toList.takeWhile (· ≠ '=')) = Base64.unpad text.toList := by
    conv_lhs => rw [padded]
    exact takeWhile_digits (fun pad => (ascii '=' (standard '=' pad)).2 rfl) n
  rw [bufferFromBase64, lowBytes_eq latin, digits, Base64.filterMap_unpad, Base64.decode]

@[simp] theorem bufferFromBase64_encode (bytes : Bytes) :
    bufferFromBase64 (Base64.encode bytes) = bytes := by
  rw [bufferFromBase64_eq_decode, Base64.decode_encode]
  intro c mem
  rw [Base64.encode, String.toList_ofList, Base64.unpad_encodeList] at mem
  obtain ⟨v, member, rfl⟩ := List.mem_map.mp mem
  exact (Base64.mem_alphabet_iff _).mpr ⟨v, Base64.sextets_lt _ v member, rfl⟩

theorem encode_bufferFromBase64 {text : String} (canonical : Base64.Canonical text) :
    Base64.encode (bufferFromBase64 text) = text := by
  rw [← canonical, bufferFromBase64_encode]

theorem fromHex_eq {text : String} (digits : ∀ c ∈ text.toList, (hexValue? c).isSome = true) :
    fromHex text = fromHexList text.toList := by
  rw [fromHex, lowBytes_eq]
  intro c mem
  obtain ⟨v, value⟩ := Option.isSome_iff_exists.mp (digits c mem)
  have := toNat_lt_of_hexValue? value
  omega

/-! ## Encodings by name -/

/-- The encodings of `Buffer`, by their names in lower case. -/
def decoder? (encoding : String) : Option (String → Bytes) :=
  if encoding ∈ ["utf8", "utf-8"] then some utf8
  else if encoding ∈ ["ucs2", "ucs-2", "utf16le", "utf-16le"] then
    some fun text => (utf16 text).flatMap fun unit => [.ofNat unit, .ofNat (unit / 256)]
  else if encoding ∈ ["latin1", "binary", "ascii"] then
    some fun text => (utf16 text).map UInt8.ofNat
  else if encoding = "hex" then some fromHex
  else if encoding ∈ ["base64", "base64url"] then some bufferFromBase64
  else none

/-- `Buffer.from(text, encoding)`, `none` when it throws. What is not a name of an encoding
at all is taken for UTF-8. -/
def bufferFrom (text : String) (encoding : Json) : Option Bytes :=
  match encoding with
  | .string "" => some (utf8 text)
  | .string name => (decoder? name.toLower).map fun decode => decode text
  | _ => some (utf8 text)

end MaanyMpc
