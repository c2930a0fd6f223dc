import MaanyMpc.Coordinator.Intake

/-! # The encodings of a backup

`Buffer.from` drops what it cannot read, so a text is only kept as a whole when it is well
formed; and without a named encoding the text of a byte string is read in one of two ways. -/

namespace MaanyMpc

/-! ## Hexadecimal texts -/

theorem hexValue?_digitChar {n : ℕ} (h : n < 16) : hexValue? (Nat.digitChar n) = some n := by
  have table : ∀ i : Fin 16, hexValue? (Nat.digitChar i) = some i.val := by decide
  exact table ⟨n, h⟩

theorem digitChar_of_hexValue? {c : Char} {v : ℕ} (h : hexValue? c = some v) :
    v < 16 ∧ Nat.digitChar v = c.toLower := by
  have table : ∀ i : Fin 128, ∀ v ∈ hexValue? (Char.ofNat i),
      v < 16 ∧ Nat.digitChar v = (Char.ofNat i).toLower := by decide
  have ascii := toNat_lt_of_hexValue? h
  have entry := table ⟨c.toNat, ascii⟩ v
  rw [Char.ofNat_toNat] at entry
  exact entry h

theorem hexValue?_of_mem_toHex {bytes : Bytes} {c : Char} (mem : c ∈ bytes.flatMap hexByte) :
    (hexValue? c).isSome = true := by
  obtain ⟨byte, _, mem⟩ := List.mem_flatMap.mp mem
  have bound := byte.toNat_lt
  rcases List.mem_pair.mp mem with rfl | rfl
  · rw [hexValue?_digitChar (by omega)]
    rfl
  · rw [hexValue?_digitChar (by omega)]
    rfl

theorem fromHexList_toHex (bytes : Bytes) : fromHexList (bytes.flatMap hexByte) = bytes := by
  induction bytes with
  | nil => rfl
  | cons b bytes ih =>
      have hb := b.toNat_lt
      have value : 16 * (b.toNat / 16) + b.toNat % 16 = b.toNat := by omega
      simp only [List.flatMap_cons, hexByte, List.cons_append, List.nil_append, fromHexList,
        hexValue?_digitChar (show b.toNat / 16 < 16 by omega),
        hexValue?_digitChar (show b.toNat % 16 < 16 by omega), ih, value, UInt8.ofNat_toNat]

/-- Digits in pairs, of either case. -/
theorem toHex_fromHexList_iff (text : List Char) :
    (fromHexList text).flatMap hexByte = text.map Char.toLower ↔
      text.length % 2 = 0 ∧ ∀ c ∈ text, (hexValue? c).isSome = true := by
  fun_induction fromHexList text with
  | case1 high low rest h l hlow hhigh ih =>
      obtain ⟨hsmall, hlower⟩ := digitChar_of_hexValue? hhigh
      obtain ⟨lsmall, llower⟩ := digitChar_of_hexValue? hlow
      have byte : (UInt8.ofNat (16 * h + l)).toNat = 16 * h + l := by
        rw [UInt8.toNat_ofNat']
        omega
      have first : (16 * h + l) / 16 = h := by omega
      have second : (16 * h + l) % 16 = l := by omega
      have pairs : (rest.length + 1 + 1) % 2 = 0 ↔ rest.length % 2 = 0 := by omega
      simp only [List.flatMap_cons, hexByte, byte, first, second, hlower, llower, List.cons_append,
        List.nil_append, List.map_cons, List.cons.injEq, true_and, ih, List.length_cons, pairs,
        List.forall_mem_cons, hhigh, hlow, Option.isSome_some]
  | case2 high low rest other =>
      refine iff_of_false (by simp) ?_
      rintro ⟨_, digits⟩
      obtain ⟨h, hhigh⟩ := Option.isSome_iff_exists.mp (digits high (by simp))
      obtain ⟨l, hlow⟩ := Option.isSome_iff_exists.mp (digits low (by simp))
      exact other h l hhigh hlow
  | case3 text short =>
      rcases text with _ | ⟨high, _ | ⟨low, rest⟩⟩
      · simp
      · simp
      · exact (short high low rest rfl).elim

theorem length_fromHexList_le (text : List Char) : 2 * (fromHexList text).length ≤ text.length := by
  fun_induction fromHexList text with
  | case1 high low rest h l hlow hhigh ih =>
      simp only [List.length_cons]
      omega
  | case2 high low rest other => simp
  | case3 text short => simp

/-! ## Formats -/

inductive BinaryFormat where
  | hex
  | base64
  deriving DecidableEq

def BinaryFormat.name : BinaryFormat → String
  | .hex => "hex"
  | .base64 => "base64"

/-- What `Buffer` writes. -/
def BinaryFormat.encode : BinaryFormat → Bytes → String
  | .hex => toHex
  | .base64 => Base64.encode

/-- What `Buffer` reads. -/
def BinaryFormat.decode : BinaryFormat → String → Bytes
  | .hex => fromHex
  | .base64 => bufferFromBase64

/-- The text is what the bytes are written as, up to the case of letters and to padding. -/
def BinaryFormat.Encodes : BinaryFormat → Bytes → String → Prop
  | .hex, bytes, text => bytes.flatMap hexByte = text.toList.map Char.toLower
  | .base64, bytes, text => Base64.unpad (Base64.encodeList bytes) = Base64.unpad text.toList

/-- Digits of the format and nothing else, with no part of a byte in them. -/
def BinaryFormat.WellFormed : BinaryFormat → String → Prop
  | .hex, text => text.toList.length % 2 = 0 ∧ ∀ c ∈ text.toList, (hexValue? c).isSome = true
  | .base64, text => (∀ c ∈ Base64.unpad text.toList, c ∈ Base64.alphabet) ∧
      Base64.NoSpareBits (text.toList.filterMap Base64.value?)

instance (format : BinaryFormat) (text : String) : Decidable (format.WellFormed text) := by
  cases format with
  | hex => exact @instDecidableAnd _ _ _ (List.decidableBAll _ _)
  | base64 => exact @instDecidableAnd _ _ (List.decidableBAll _ _) _

/-- The letters of a hexadecimal text are in lower case. -/
theorem hexValue?_of_toHex {bytes : Bytes} {text : String}
    (encodes : bytes.flatMap hexByte = text.toList.map Char.toLower) :
    ∀ c ∈ text.toList, (hexValue? c).isSome = true := by
  have table : ∀ i : Fin 128, (hexValue? (Char.ofNat i).toLower).isSome = true →
      (hexValue? (Char.ofNat i)).isSome = true := by decide +kernel
  intro c mem
  have lower : c.toLower ∈ bytes.flatMap hexByte := encodes ▸ List.mem_map_of_mem mem
  have digit := hexValue?_of_mem_toHex lower
  by_cases ascii : c.toNat < 128
  · have entry := table ⟨c.toNat, ascii⟩
    rw [Char.ofNat_toNat] at entry
    exact entry digit
  · have same : c.toLower = c := by
      refine dif_neg ?_
      rintro ⟨_, upper⟩
      have : c.toNat ≤ 90 := upper
      omega
    rwa [same] at digit

theorem BinaryFormat.encodes_decode_iff (format : BinaryFormat) (text : String) :
    format.Encodes (format.decode text) text ↔ format.WellFormed text := by
  cases format with
  | hex =>
      constructor
      · intro encodes
        have digits := hexValue?_of_toHex encodes
        rw [Encodes, decode, fromHex_eq digits] at encodes
        exact (toHex_fromHexList_iff text.toList).mp encodes
      · intro wellFormed
        rw [Encodes, decode, fromHex_eq wellFormed.2]
        exact (toHex_fromHexList_iff text.toList).mpr wellFormed
  | base64 =>
      constructor
      · intro encodes
        have standard : ∀ c ∈ Base64.unpad text.toList, c ∈ Base64.alphabet := by
          rw [Encodes, Base64.unpad_encodeList] at encodes
          rw [← encodes]
          intro c mem
          obtain ⟨v, member, rfl⟩ := List.mem_map.mp mem
          exact (Base64.mem_alphabet_iff _).mpr ⟨v, Base64.sextets_lt _ v member, rfl⟩
        rw [Encodes, decode, bufferFromBase64_eq_decode standard] at encodes
        exact (Base64.decode_canonical_iff text.toList).mp encodes
      · intro wellFormed
        rw [Encodes, decode, bufferFromBase64_eq_decode wellFormed.1]
        exact (Base64.decode_canonical_iff text.toList).mpr wellFormed

/-- `inferEncoding`. -/
def inferredFormat (text : String) : BinaryFormat :=
  if text.toList ≠ [] ∧ (text.toList.all fun c => (hexValue? c).isSome) ∧
      text.toList.length % 2 = 0 then .hex
  else .base64

theorem inferEncoding_eq (text : String) :
    inferEncoding text = .string (inferredFormat text).name := by
  simp only [inferEncoding, inferredFormat]
  split <;> rfl

/-- The format in which a text is read: the one that is named, or else the one it looks like. -/
def InFormat (encoding : Option Json) (text : String) (format : BinaryFormat) : Prop :=
  encoding = some (.string format.name) ∨
    coalesce encoding none = none ∧ format = inferredFormat text

theorem bufferFrom_name (format : BinaryFormat) (text : String) :
    bufferFrom text (.string format.name) = some (format.decode text) := by
  have hex : "hex".toLower = "hex" := by decide +kernel
  have base64 : "base64".toLower = "base64" := by decide +kernel
  cases format with
  | hex => simp [BinaryFormat.name, bufferFrom, hex, decoder?, BinaryFormat.decode]
  | base64 => simp [BinaryFormat.name, bufferFrom, base64, decoder?, BinaryFormat.decode]

theorem decodeBinary_inFormat {v : String} {encoding : Option Json} {format : BinaryFormat}
    (h : InFormat encoding (trim v) format) (field : String) :
    decodeBinary (some (.string v)) encoding field = .ok (format.decode (trim v)) := by
  have blank : format.decode "" = [] := by cases format <;> rfl
  have named : (coalesce encoding none).getD (inferEncoding (trim v)) = .string format.name := by
    rcases h with rfl | ⟨unnamed, rfl⟩
    · rfl
    · rw [unnamed, Option.getD_none, inferEncoding_eq]
  simp only [decodeBinary]
  by_cases empty : v = "" ∨ trim v = ""
  · rw [if_pos empty]
    have trimmed : trim v = "" := by
      rcases empty with rfl | trimmed
      · rfl
      · exact trimmed
    rw [trimmed, blank]
  · rw [if_neg empty, named, bufferFrom_name]

/-! ## Texts that are cut short -/

/-- The value of a field of a payload, and the name of its encoding. -/
structure BinaryField where
  value : Option Json
  encoding : Option Json

def fragmentField (payload : Json) : BinaryField :=
  ⟨fragmentSource payload, payload.get? "fragmentEncoding"⟩

def labelField (ciphertext : Json) : BinaryField :=
  ⟨ciphertext.get? "label", ciphertext.get? "labelEncoding"⟩

def blobField (ciphertext : Json) : BinaryField :=
  ⟨ciphertext.get? "blob", ciphertext.get? "blobEncoding"⟩

def BinaryField.decode (f : BinaryField) (field : String) : Except JsError Bytes :=
  decodeBinary f.value f.encoding field

/-- The bytes are what the field encodes. -/
def BinaryField.KeptAs (f : BinaryField) (bytes : Bytes) : Prop :=
  ∃ v format, f.value = some (.string v) ∧ InFormat f.encoding (trim v) format ∧
    format.Encodes bytes (trim v)

def BinaryField.WellFormed (f : BinaryField) : Prop :=
  ∃ v format, f.value = some (.string v) ∧ InFormat f.encoding (trim v) format ∧
    format.WellFormed (trim v)

theorem BinaryField.keptAs_iff {f : BinaryField} {field : String} {bytes : Bytes}
    (h : f.decode field = .ok bytes) : f.KeptAs bytes ↔ f.WellFormed := by
  refine exists_congr fun v => exists_congr fun format => and_congr_right fun value =>
    and_congr_right fun inFormat => ?_
  have read := decodeBinary_inFormat inFormat field
  rw [← value] at read
  obtain rfl := Except.ok.inj (h.symm.trans read)
  exact format.encodes_decode_iff (trim v)

/-- The parts of an accepted payload that are read from texts. -/
theorem processBackupShare_fields {intentKeyId : Option Json} {payload ciphertext : Json}
    {draft : BackupDraft} (h : processBackupShare (some intentKeyId) payload = .ok draft)
    (known : payload.get? "ciphertext" = some ciphertext) :
    (fragmentField payload).decode "fragment" = .ok draft.fragment ∧
      (labelField ciphertext).decode "ciphertext.label" = .ok draft.ciphertext.label ∧
      (blobField ciphertext).decode "ciphertext.blob" = .ok draft.ciphertext.blob := by
  obtain ⟨_, _, fragment, object, found, parsed⟩ := processBackupShare_eq_ok_iff.mp h
  rw [known] at found
  obtain ⟨same, _⟩ := Option.filter_eq_some_iff.mp found
  obtain rfl := Option.some.inj same
  obtain ⟨_, _, _, _, _, _, label, blob⟩ := parseCiphertext_eq_ok_iff.mp parsed
  exact ⟨fragment, label, blob⟩

/-- Which texts are kept: of one field, and of a payload that is accepted. -/
theorem texts_kept_iff (intentKeyId : Option Json) (payload ciphertext : Json) :
    (∀ (format : BinaryFormat) (v field : String),
      (∀ bytes, decodeBinary (some (.string v)) (some (.string format.name)) field = .ok bytes →
        format.Encodes bytes (trim v)) ↔ format.WellFormed (trim v)) ∧
    ∀ draft encryptedFragment,
      processBackupShare (some intentKeyId) payload = .ok draft →
      payload.get? "ciphertext" = some ciphertext →
      ((fragmentField payload).KeptAs draft.fragment ∧
          (labelField ciphertext).KeptAs
            (bufferFromBase64 (draft.record encryptedFragment).ciphertextLabel) ∧
          (blobField ciphertext).KeptAs
            (bufferFromBase64 (draft.record encryptedFragment).ciphertextBlob) ↔
        (fragmentField payload).WellFormed ∧ (labelField ciphertext).WellFormed ∧
          (blobField ciphertext).WellFormed) := by
  constructor
  · intro format v field
    have read := decodeBinary_inFormat (v := v) (.inl rfl : InFormat _ _ format) field
    rw [read]
    simp only [Except.ok.injEq, forall_eq', format.encodes_decode_iff]
  · intro draft encryptedFragment accepted known
    obtain ⟨fragment, label, blob⟩ := processBackupShare_fields accepted known
    simp only [BackupDraft.record, bufferFromBase64_encode]
    rw [BinaryField.keptAs_iff fragment, BinaryField.keptAs_iff label,
      BinaryField.keptAs_iff blob]

/-- A byte and a half, in hexadecimal. -/
theorem odd_text_truncated :
    ¬ ∀ (format : BinaryFormat) (v field : String) (bytes : Bytes),
      decodeBinary (some (.string v)) (some (.string format.name)) field = .ok bytes →
        format.Encodes bytes (trim v) := by
  intro kept
  have read : decodeBinary (some (.string "abc")) (some (.string "hex")) "blob" = .ok [0xab] := by
    decide +kernel
  have encoded := kept .hex "abc" "blob" [0xab] read
  revert encoded
  simp only [BinaryFormat.Encodes]
  decide +kernel

/-- A backup that is sent in hexadecimal digits. -/
theorem texts_kept_iff_sample :
    (fragmentField sampleBackup).KeptAs [1] ∧ (labelField sampleBackupObject).KeptAs [] ∧
      (blobField sampleBackupObject).KeptAs [0] := by
  have kept := (texts_kept_iff none sampleBackup sampleBackupObject).2 sampleDraft ""
    (processBackupShare_sampleBackup none) rfl
  have label : sampleDraft.ciphertext.label = [] := rfl
  have blob : sampleDraft.ciphertext.blob = [0] := rfl
  simp only [BackupDraft.record, bufferFromBase64_encode, label, blob] at kept
  refine kept.mpr ⟨⟨"01", .hex, rfl, .inr ⟨rfl, ?_⟩, ?_⟩, ⟨"", .base64, rfl, .inr ⟨rfl, ?_⟩, ?_⟩,
    ⟨"00", .hex, rfl, .inr ⟨rfl, ?_⟩, ?_⟩⟩
  all_goals decide +kernel

/-! ## Texts without an encoding -/

theorem trim_eq_self {text : String} (h : ∀ c ∈ text.toList, isJsSpace c = false) :
    trim text = text := by
  have keeps {chars : List Char} (h : ∀ c ∈ chars, isJsSpace c = false) :
      chars.dropWhile isJsSpace = chars := by
    cases chars with
    | nil => rfl
    | cons c chars =>
        rw [List.dropWhile_cons_of_neg]
        simp [h c List.mem_cons_self]
  have backwards : ∀ c ∈ text.toList.reverse, isJsSpace c = false := by
    intro c mem
    exact h c (List.mem_reverse.mp mem)
  rw [trim, trimList, keeps h, keeps backwards, List.reverse_reverse, String.ofList_toList]

theorem trim_encode (format : BinaryFormat) (b : Bytes) :
    trim (format.encode b) = format.encode b := by
  apply trim_eq_self
  cases format with
  | hex =>
      have table : ∀ i : Fin 16, isJsSpace (Nat.digitChar i) = false := by decide +kernel
      intro c mem
      rw [BinaryFormat.encode, toHex, String.toList_ofList, List.mem_flatMap] at mem
      obtain ⟨byte, _, mem⟩ := mem
      have bound := byte.toNat_lt
      rcases List.mem_pair.mp mem with rfl | rfl
      · exact table ⟨byte.toNat / 16, by omega⟩
      · exact table ⟨byte.toNat % 16, by omega⟩
  | base64 =>
      have table : ∀ i : Fin 64, isJsSpace (Base64.digit i) = false := by decide +kernel
      rw [BinaryFormat.encode, Base64.encode, String.toList_ofList]
      exact Base64.forall_mem_encodeList (fun n h => table ⟨n, h⟩) (by decide +kernel) b

/-- What an unnamed text of a byte string is read as. -/
theorem decodeBinary_encode (format : BinaryFormat) (b : Bytes) {encoding : Option Json}
    (unnamed : coalesce encoding none = none) (field : String) :
    decodeBinary (some (.string (format.encode b))) encoding field =
      .ok ((inferredFormat (format.encode b)).decode (format.encode b)) := by
  have read := decodeBinary_inFormat (v := format.encode b)
    (.inr ⟨unnamed, rfl⟩ : InFormat encoding _ _) field
  rwa [trim_encode] at read

theorem decode_toHex (b : Bytes) : (inferredFormat (toHex b)).decode (toHex b) = b := by
  cases b with
  | nil => decide +kernel
  | cons byte rest =>
      have digits : ∀ c ∈ (byte :: rest).flatMap hexByte, (hexValue? c).isSome = true :=
        fun _ => hexValue?_of_mem_toHex
      have pairs : ((byte :: rest).flatMap hexByte).length % 2 = 0 := by
        simp only [List.length_flatMap, hexByte, List.length_cons, List.length_nil,
          List.map_const', List.sum_replicate_nat]
        omega
      have format : inferredFormat (toHex (byte :: rest)) = .hex := by
        rw [inferredFormat, toHex, String.toList_ofList, if_pos]
        exact ⟨by simp [hexByte], List.all_eq_true.mpr digits, pairs⟩
      rw [format, BinaryFormat.decode, fromHex_eq (by rwa [toHex, String.toList_ofList]), toHex,
        String.toList_ofList, fromHexList_toHex]

/-- The text of some bytes is half as long again as their hexadecimal reading. -/
theorem decode_encode_iff (b : Bytes) :
    (inferredFormat (Base64.encode b)).decode (Base64.encode b) = b ↔
      b = [] ∨ ∃ c ∈ (Base64.encode b).toList, hexValue? c = none := by
  rw [Base64.encode, String.toList_ofList]
  constructor
  · intro back
    by_contra other
    push Not at other
    obtain ⟨nonempty, digits⟩ := other
    have length := Base64.length_encodeList_unpadded fun pad => digits '=' pad (by decide)
    have some_byte := List.length_pos_iff.mpr nonempty
    have format : inferredFormat (String.ofList (Base64.encodeList b)) = .hex := by
      rw [inferredFormat, String.toList_ofList, if_pos]
      refine ⟨?_, List.all_eq_true.mpr fun c mem =>
        Option.isSome_iff_ne_none.mpr (digits c mem), ?_⟩
      · intro empty
        rw [empty, List.length_nil] at length
        omega
      · omega
    have short := length_fromHexList_le (Base64.encodeList b)
    have hex : ∀ c ∈ (String.ofList (Base64.encodeList b)).toList, (hexValue? c).isSome = true := by
      rw [String.toList_ofList]
      exact fun c mem => Option.isSome_iff_ne_none.mpr (digits c mem)
    rw [format, BinaryFormat.decode, fromHex_eq hex, String.toList_ofList] at back
    rw [back] at short
    omega
  · rintro (rfl | ⟨c, mem, other⟩)
    · decide +kernel
    · have format : inferredFormat (String.ofList (Base64.encodeList b)) = .base64 := by
        rw [inferredFormat, String.toList_ofList, if_neg]
        rintro ⟨_, digits, _⟩
        have digit := List.all_eq_true.mp digits c mem
        rw [other] at digit
        cases digit
      rw [format]
      exact bufferFromBase64_encode b

/-- The field has a text of these bytes, and names no encoding. -/
def BinaryField.Sends (f : BinaryField) (format : BinaryFormat) (b : Bytes) : Prop :=
  f.value = some (.string (format.encode b)) ∧ coalesce f.encoding none = none

/-- A byte string is read back from both of its texts, and so it is where one of them is a part
of a payload. -/
structure InfersRight (b : Bytes) : Prop where
  decoded : ∀ (format : BinaryFormat) encoding (field : String),
    coalesce encoding none = none →
    decodeBinary (some (.string (format.encode b))) encoding field = .ok b
  stored : ∀ (format : BinaryFormat) intentKeyId payload ciphertext draft encryptedFragment,
    processBackupShare (some intentKeyId) payload = .ok draft →
    payload.get? "ciphertext" = some ciphertext →
    ((fragmentField payload).Sends format b → draft.fragment = b) ∧
      ((labelField ciphertext).Sends format b →
        bufferFromBase64 (draft.record encryptedFragment).ciphertextLabel = b) ∧
      ((blobField ciphertext).Sends format b →
        bufferFromBase64 (draft.record encryptedFragment).ciphertextBlob = b)

/-- All is well unless the base64 text is made of hexadecimal digits alone. -/
theorem infersRight_iff (b : Bytes) :
    InfersRight b ↔ b = [] ∨ ∃ c ∈ (Base64.encode b).toList, hexValue? c = none := by
  rw [← decode_encode_iff]
  constructor
  · intro right
    have read := right.decoded .base64 none "" rfl
    rw [decodeBinary_encode .base64 b rfl] at read
    exact Except.ok.inj read
  · intro base64
    have back (format : BinaryFormat) :
        (inferredFormat (format.encode b)).decode (format.encode b) = b := by
      cases format with
      | hex => exact decode_toHex b
      | base64 => exact base64
    have sent {format : BinaryFormat} {f : BinaryField} {field : String} {bytes : Bytes}
        (read : f.decode field = .ok bytes) (sends : f.Sends format b) : bytes = b := by
      rw [BinaryField.decode, sends.1, decodeBinary_encode format b sends.2, back] at read
      exact (Except.ok.inj read).symm
    constructor
    · intro format encoding field unnamed
      rw [decodeBinary_encode format b unnamed, back]
    · intro format intentKeyId payload ciphertext draft encryptedFragment accepted known
      obtain ⟨fragment, label, blob⟩ := processBackupShare_fields accepted known
      simp only [BackupDraft.record, bufferFromBase64_encode]
      exact ⟨sent fragment, sent label, sent blob⟩

/-- Three bytes with the base64 text `abcd`. -/
theorem base64_read_as_hex : ¬ InfersRight [0x69, 0xb7, 0x1d] := by
  intro right
  have read := right.decoded .base64 none "blob" rfl
  revert read
  decide +kernel

end MaanyMpc
