import MaanyMpc.Coordinator.BackupShare
import MaanyMpc.Coordinator.KeyEncryptor

/-! # The tag of a stored share

`decryptShare` cuts what it is given into vector, tag and ciphertext without looking at its
length, and Node compares as many bytes of a tag as there are. -/

namespace MaanyMpc

/-! ## The master key -/

inductive MasterKey where
  | string (text : String)
  | buffer (bytes : Bytes)

/-- The check that both branches of `normalizeKeyBytes` end with. -/
def expectKey (bytes : Bytes) : Except JsError (Vector UInt8 32) :=
  if length : bytes.length = 32 then .ok ⟨bytes.toArray, by simpa using length⟩
  else .error (.error ("expected 32-byte master key, received " ++ toString bytes.length))

def normalizeKeyBytes : MasterKey → Except JsError (Vector UInt8 32)
  | .buffer key => expectKey key
  | .string key =>
    let trimmed := trim key
    expectKey
      (if trimmed.toList ≠ [] ∧ (trimmed.toList.all fun c => (hexValue? c).isSome) then
        fromHex trimmed
      else bufferFromBase64 trimmed)

/-- The constructor of `AesGcmKeyEncryptor`. -/
def newAesGcmKeyEncryptor (gcm : NodeGcm) (masterKey : MasterKey) : Except JsError KeyEncryptor :=
  (normalizeKeyBytes masterKey).map (AesGcmKeyEncryptor gcm)

/-! ## What Node does with a tag -/

/-- The lengths that `setAuthTag` takes. -/
def AcceptedTagLength (n : ℕ) : Prop := n = 4 ∨ n = 8 ∨ 12 ≤ n ∧ n ≤ 16

instance (n : ℕ) : Decidable (AcceptedTagLength n) := inferInstanceAs (Decidable (_ ∨ _))

/-- What is assumed of AES-256-GCM in Node: a ciphertext is as long as its text; and where it
decrypts, it is the one of the text, with a tag that is the beginning of the text's tag. -/
structure NodeGcm.Documented (gcm : NodeGcm) : Prop where
  length : ∀ key iv plaintext, (gcm.encrypt key iv plaintext).1.length = plaintext.length
  decrypt_iff : ∀ key iv tag ciphertext plaintext,
    gcm.decrypt key iv tag ciphertext = some plaintext ↔
      iv ≠ [] ∧ AcceptedTagLength tag.length ∧
        ∃ full, gcm.encrypt key iv plaintext = (ciphertext, full) ∧ tag <+: full.toList

/-- The bytes of the text are a vector, a tag of 16 bytes and a ciphertext that authenticate. -/
def FullyTagged (gcm : NodeGcm) (key : Vector UInt8 32) (encoded : String)
    (plaintext : Bytes) : Prop :=
  ∃ (iv : Vector UInt8 12) (tag : Vector UInt8 16) (ciphertext : Bytes),
    bufferFromBase64 encoded = iv.toList ++ tag.toList ++ ciphertext ∧
      gcm.encrypt key iv.toList plaintext = (ciphertext, tag)

/-- A text too short for a tag of 16 bytes, with what there is of one being right. -/
def ShortTag (gcm : NodeGcm) (key : Vector UInt8 32) (encoded : String) : Prop :=
  let buf := bufferFromBase64 encoded
  buf.length < 28 ∧ AcceptedTagLength (buf.length - 12) ∧
    buf.drop 12 <+: (gcm.encrypt key (buf.take 12) []).2.toList

theorem FullyTagged.length {gcm : NodeGcm} {key : Vector UInt8 32} {encoded : String}
    {plaintext : Bytes} (h : FullyTagged gcm key encoded plaintext) :
    28 ≤ (bufferFromBase64 encoded).length := by
  obtain ⟨iv, tag, ciphertext, split, _⟩ := h
  rw [split, List.length_append, List.length_append, iv.length_toList, tag.length_toList]
  omega

section Documented

variable {gcm : NodeGcm} (documented : gcm.Documented) (key : Vector UInt8 32)

include documented

theorem NodeGcm.Documented.encrypt_nil (iv : Bytes) :
    gcm.encrypt key iv [] = ([], (gcm.encrypt key iv []).2) :=
  Prod.ext (List.length_eq_zero_iff.mp (documented.length key iv [])) rfl

/-- What was encrypted authenticates with its whole tag. -/
theorem NodeGcm.Documented.decrypt_encrypt (iv : Vector UInt8 12) (plaintext : Bytes) :
    gcm.decrypt key iv.toList (gcm.encrypt key iv.toList plaintext).2.toList
      (gcm.encrypt key iv.toList plaintext).1 = some plaintext := by
  refine (documented.decrypt_iff ..).mpr ⟨?_, ?_, _, rfl, List.prefix_rfl⟩
  · intro empty
    have length := congrArg List.length empty
    simp at length
  · rw [Vector.length_toList]
    decide

theorem decryptShare_encryptShare (iv : Vector UInt8 12) (plaintext : Bytes) :
    (AesGcmKeyEncryptor gcm key).decryptShare
      ((AesGcmKeyEncryptor gcm key).encryptShare iv plaintext) = some plaintext := by
  obtain ⟨hiv, htag, hrest⟩ := take_drop_parts iv (gcm.encrypt key iv.toList plaintext).2
    (gcm.encrypt key iv.toList plaintext).1
  simp only [AesGcmKeyEncryptor, bufferFromBase64_encode, hiv, htag, hrest]
  exact documented.decrypt_encrypt key iv plaintext

/-- With 28 bytes there is a tag of 16. -/
theorem fullyTagged_of_decryptShare {encoded : String} {plaintext : Bytes}
    (long : 28 ≤ (bufferFromBase64 encoded).length)
    (decrypted : (AesGcmKeyEncryptor gcm key).decryptShare encoded = some plaintext) :
    FullyTagged gcm key encoded plaintext := by
  simp only [AesGcmKeyEncryptor] at decrypted
  generalize split : bufferFromBase64 encoded = buf at long decrypted
  obtain ⟨_, _, full, encrypted, compared⟩ := (documented.decrypt_iff ..).mp decrypted
  have vector : (buf.take 12).length = 12 := by simpa using by omega
  have tag : ((buf.drop 12).take 16).length = 16 := by simpa using by omega
  have whole : (buf.drop 12).take 16 = full.toList :=
    compared.eq_of_length (tag.trans full.length_toList.symm)
  refine ⟨⟨(buf.take 12).toArray, by simpa using vector⟩, full, buf.drop 28, ?_, encrypted⟩
  rw [split, ← whole, List.append_assoc, ← List.drop_drop (i := 16) (j := 12)]
  change buf = buf.take 12 ++ _
  rw [List.take_append_drop, List.take_append_drop]

/-- With fewer there is no ciphertext, and all that is left is the tag. -/
theorem decryptShare_short_iff {encoded : String} (short : (bufferFromBase64 encoded).length < 28) :
    (∃ plaintext, (AesGcmKeyEncryptor gcm key).decryptShare encoded = some plaintext) ↔
      ShortTag gcm key encoded := by
  simp only [AesGcmKeyEncryptor, ShortTag]
  generalize bufferFromBase64 encoded = buf at short
  have nothing : buf.drop 28 = [] := List.drop_eq_nil_of_le short.le
  have tag : (buf.drop 12).take 16 = buf.drop 12 :=
    List.take_of_length_le (by rw [List.length_drop]; omega)
  rw [nothing, tag]
  simp only [documented.decrypt_iff, List.length_drop]
  constructor
  · rintro ⟨plaintext, _, accepted, full, encrypted, compared⟩
    have same := documented.length key (buf.take 12) plaintext
    rw [encrypted] at same
    obtain rfl := List.length_eq_zero_iff.mp same.symm
    rw [encrypted]
    exact ⟨short, accepted, compared⟩
  · rintro ⟨_, accepted, compared⟩
    refine ⟨[], ?_, accepted, _, documented.encrypt_nil key _, compared⟩
    rintro empty
    have length := congrArg List.length empty
    rw [List.length_take, List.length_nil] at length
    unfold AcceptedTagLength at accepted
    omega

end Documented

theorem newAesGcmKeyEncryptor_eq_ok {gcm : NodeGcm} {masterKey : MasterKey}
    {encryptor : KeyEncryptor} (h : newAesGcmKeyEncryptor gcm masterKey = .ok encryptor) :
    ∃ key, normalizeKeyBytes masterKey = .ok key ∧ encryptor = AesGcmKeyEncryptor gcm key := by
  unfold newAesGcmKeyEncryptor at h
  cases normalized : normalizeKeyBytes masterKey with
  | error err =>
      rw [normalized] at h
      cases h
  | ok key =>
      rw [normalized] at h
      exact ⟨key, rfl, (Except.ok.inj h).symm⟩

/-- Shares come back under every vector; and what decrypts at all has a full tag if and only if it
is not a vector with the beginning of the tag of an empty text. -/
theorem full_tag_iff {gcm : NodeGcm} (documented : gcm.Documented) {masterKey : MasterKey}
    {encryptor : KeyEncryptor} (created : newAesGcmKeyEncryptor gcm masterKey = .ok encryptor) :
    (∀ iv plaintext, encryptor.decryptShare (encryptor.encryptShare iv plaintext) =
      some plaintext) ∧
    ∃ key, normalizeKeyBytes masterKey = .ok key ∧
      ∀ encoded, (∀ plaintext, encryptor.decryptShare encoded = some plaintext →
        FullyTagged gcm key encoded plaintext) ↔ ¬ ShortTag gcm key encoded := by
  obtain ⟨key, normalized, rfl⟩ := newAesGcmKeyEncryptor_eq_ok created
  refine ⟨decryptShare_encryptShare documented key, key, normalized, fun encoded => ?_⟩
  by_cases short : (bufferFromBase64 encoded).length < 28
  · rw [← decryptShare_short_iff documented key short, not_exists]
    refine forall_congr' fun plaintext => ⟨fun tagged decrypted => ?_, fun refused decrypted =>
      (refused decrypted).elim⟩
    have long := (tagged decrypted).length
    omega
  · exact iff_of_true
      (fun plaintext => fullyTagged_of_decryptShare documented key (Nat.not_lt.mp short))
      fun bad => short bad.1

/-! ## Four bytes of a tag -/

/-- The tag of the empty text under a key and a vector of zeros. -/
def emptyTag : Vector UInt8 16 :=
  #v[0x53, 0x0f, 0x8a, 0xfb, 0xc7, 0x45, 0x36, 0xb9, 0xa9, 0x63, 0xb4, 0xf1, 0xc4, 0xcb, 0x73, 0x8b]

/-- A cipher that leaves the text as it is, with this tag. -/
def constantGcm : NodeGcm where
  encrypt _ _ plaintext := (plaintext, emptyTag)
  decrypt _ iv tag ciphertext :=
    if iv ≠ [] ∧ AcceptedTagLength tag.length ∧ tag <+: emptyTag.toList then some ciphertext
    else none

theorem constantGcm_documented : constantGcm.Documented where
  length _ _ _ := rfl
  decrypt_iff key iv tag ciphertext plaintext := by
    simp only [constantGcm, Option.ite_none_right_eq_some, Option.some.injEq, Prod.mk.injEq]
    constructor
    · rintro ⟨⟨vector, accepted, compared⟩, rfl⟩
      exact ⟨vector, accepted, emptyTag, ⟨rfl, rfl⟩, compared⟩
    · rintro ⟨vector, accepted, _, ⟨rfl, rfl⟩, compared⟩
      exact ⟨⟨vector, accepted, compared⟩, rfl⟩

/-- A key of zeros. -/
def zeroKey : MasterKey := .buffer (List.replicate 32 0)

theorem full_tag_iff_zeros : ∃ encryptor,
    newAesGcmKeyEncryptor constantGcm zeroKey = .ok encryptor ∧
    (∀ iv plaintext, encryptor.decryptShare (encryptor.encryptShare iv plaintext) =
      some plaintext) ∧
    ∃ key, normalizeKeyBytes zeroKey = .ok key ∧
      ∀ encoded, (∀ plaintext, encryptor.decryptShare encoded = some plaintext →
        FullyTagged constantGcm key encoded plaintext) ↔ ¬ ShortTag constantGcm key encoded := by
  have created : newAesGcmKeyEncryptor constantGcm zeroKey =
    .ok (AesGcmKeyEncryptor constantGcm (Vector.replicate 32 0)) := rfl
  exact ⟨_, created, full_tag_iff constantGcm_documented created⟩

/-- The vector, and four bytes that are right. -/
theorem truncated_tag_accepted : ¬ ∀ (gcm : NodeGcm) (masterKey : MasterKey)
    (encryptor : KeyEncryptor) (key : Vector UInt8 32) (encoded : String) (plaintext : Bytes),
    gcm.Documented → newAesGcmKeyEncryptor gcm masterKey = .ok encryptor →
      normalizeKeyBytes masterKey = .ok key →
      encryptor.decryptShare encoded = some plaintext →
        FullyTagged gcm key encoded plaintext := by
  intro full
  have text : bufferFromBase64 "AAAAAAAAAAAAAAAAUw+K+w==" =
      List.replicate 12 0 ++ [0x53, 0x0f, 0x8a, 0xfb] := by decide +kernel
  have decrypted : (AesGcmKeyEncryptor constantGcm (Vector.replicate 32 0)).decryptShare
      "AAAAAAAAAAAAAAAAUw+K+w==" = some [] := by
    simp only [AesGcmKeyEncryptor, text]
    decide
  have tagged := full constantGcm zeroKey _ _ _ _ constantGcm_documented rfl rfl decrypted
  have long := tagged.length
  rw [text] at long
  simp at long

end MaanyMpc
