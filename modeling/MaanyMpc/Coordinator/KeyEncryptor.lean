import MaanyMpc.Coordinator.NodeBuffer

/-! # Encryptors of shares

The plain one, and AES-256-GCM with a layout of its own: vector, tag and ciphertext, in
base64. -/

namespace MaanyMpc

/-- A `KeyEncryptor`; the initialization vector of a call is drawn by `randomBytes`. -/
structure KeyEncryptor where
  encryptShare : Vector UInt8 12 → Bytes → String
  decryptShare : String → Option Bytes

/-- AES-256-GCM of `node:crypto`. -/
structure NodeGcm where
  encrypt : (key : Vector UInt8 32) → (iv plaintext : Bytes) → Bytes × Vector UInt8 16
  /-- `none` where the tag is refused or does not authenticate -/
  decrypt : (key : Vector UInt8 32) → (iv tag ciphertext : Bytes) → Option Bytes

/-- What was encrypted decrypts under the same key and vector with its tag. -/
def NodeGcm.Lawful (gcm : NodeGcm) : Prop :=
  ∀ key iv plaintext, gcm.decrypt key iv (gcm.encrypt key iv plaintext).2.toList
    (gcm.encrypt key iv plaintext).1 = some plaintext

/-- A cipher that leaves the text as it is, with a tag of zeros. -/
def sampleNodeGcm : NodeGcm where
  encrypt _ _ plaintext := (plaintext, Vector.replicate 16 0)
  decrypt _ _ tag ciphertext := if tag = List.replicate 16 0 then some ciphertext else none

theorem sampleNodeGcm_lawful : sampleNodeGcm.Lawful := by
  intro key iv plaintext
  simp [sampleNodeGcm]

def PlaintextKeyEncryptor : KeyEncryptor where
  encryptShare _ raw := Base64.encode raw
  decryptShare encoded := some (bufferFromBase64 encoded)

def AesGcmKeyEncryptor (gcm : NodeGcm) (masterKey : Vector UInt8 32) : KeyEncryptor where
  encryptShare iv raw :=
    let (ciphertext, tag) := gcm.encrypt masterKey iv.toList raw
    Base64.encode (iv.toList ++ tag.toList ++ ciphertext)
  decryptShare encoded :=
    let buf := bufferFromBase64 encoded
    gcm.decrypt masterKey (buf.take 12) ((buf.drop 12).take 16) (buf.drop 28)

/-- The two encryptors of the package. -/
inductive Encryptor where
  | plaintext
  | aesGcm (masterKey : Vector UInt8 32)

def Encryptor.keyEncryptor (gcm : NodeGcm) : Encryptor → KeyEncryptor
  | .plaintext => PlaintextKeyEncryptor
  | .aesGcm masterKey => AesGcmKeyEncryptor gcm masterKey

/-- The parts of a buffer that starts with two parts of known lengths. -/
theorem take_drop_parts (iv : Vector UInt8 12) (tag : Vector UInt8 16) (rest : Bytes) :
    (iv.toList ++ tag.toList ++ rest).take 12 = iv.toList ∧
      ((iv.toList ++ tag.toList ++ rest).drop 12).take 16 = tag.toList ∧
      (iv.toList ++ tag.toList ++ rest).drop 28 = rest := by
  have hiv : iv.toList.length = 12 := iv.length_toList
  have htag : tag.toList.length = 16 := tag.length_toList
  have hboth : (iv.toList ++ tag.toList).length = 28 := by simp
  refine ⟨?_, ?_, List.drop_left' hboth⟩
  · rw [List.append_assoc, List.take_left' hiv]
  · rw [List.append_assoc, List.drop_left' hiv, List.take_left' htag]

theorem Encryptor.decryptShare_encryptShare {gcm : NodeGcm} (h : gcm.Lawful)
    (encryptor : Encryptor) (iv : Vector UInt8 12) (raw : Bytes) :
    (encryptor.keyEncryptor gcm).decryptShare ((encryptor.keyEncryptor gcm).encryptShare iv raw) =
      some raw := by
  cases encryptor with
  | plaintext => exact congrArg some (bufferFromBase64_encode raw)
  | aesGcm masterKey =>
      obtain ⟨hiv, htag, hrest⟩ := take_drop_parts iv (gcm.encrypt masterKey iv.toList raw).2
        (gcm.encrypt masterKey iv.toList raw).1
      simp only [keyEncryptor, AesGcmKeyEncryptor, bufferFromBase64_encode, hiv, htag, hrest]
      exact h masterKey iv.toList raw

theorem Encryptor.canonical_encryptShare (gcm : NodeGcm) (encryptor : Encryptor)
    (iv : Vector UInt8 12) (raw : Bytes) :
    Base64.Canonical ((encryptor.keyEncryptor gcm).encryptShare iv raw) := by
  cases encryptor with
  | plaintext => exact Base64.canonical_encode raw
  | aesGcm masterKey => exact Base64.canonical_encode _

end MaanyMpc
