import MaanyMpc.Backup.KeyBlob
import MaanyMpc.Backup.Secp256k1
import MaanyMpc.Library.BigEndian
import MaanyMpc.Library.Sharing
import Mathlib.Algebra.Field.ZMod

/-! # Backups

`CreateBackup` and `RestoreBackup` with everything of their own: the share codec, the
layout of the payload and the checks. What they call is in `CbMpc`, `AesGcm` and `Rng`. -/

namespace MaanyMpc

open Polynomial

variable {Point Paillier Drbg : Type}

def kBackupNonceSize : Nat := 12
def kBackupTagSize : Nat := 16
def kBackupShareVersion : UInt8 := 1

/-- `curve_secp256k1.size()`. -/
def scalarSize : Nat := 32

/-! ## What the bridge calls -/

/-- The functions of cb-mpc behind a backup. -/
structure CbMpc (Point Paillier Drbg : Type) where
  converter : Converter Point Paillier
  /-- `drbg_aes_ctr_t`, from its seed -/
  drbg : Bytes → Drbg
  genBn : Drbg → (q : Int) → Int × Drbg
  toBin : (size : Nat) → Int → Vector UInt8 size
  fromBin : Bytes → Int
  /-- the share values of `ss::share_threshold`, in the order of the pids -/
  shareThreshold : (q secret threshold n : Int) → (pids : List Int) → Drbg → List Int
  lagrangeInterpolate : (x : Int) → (values pids : List Int) → (q : Int) → Int

/-- A number modulo the order. -/
abbrev Scalar := ZMod secp256k1Order

/-- What is assumed of them: numbers are written in fixed-width big-endian, shares are the
values of a polynomial of degree below the threshold with the secret as constant term, and
interpolation is interpolation at zero modulo the order. -/
structure CbMpc.Lawful (cb : CbMpc Point Paillier Drbg) : Prop where
  converter : cb.converter.Lawful
  genBn : ∀ drbg, 0 ≤ (cb.genBn drbg secp256k1Order).1 ∧
    (cb.genBn drbg secp256k1Order).1 < secp256k1Order
  toBin : ∀ size value, 0 ≤ value → value < 256 ^ size →
    (cb.toBin size value).toList = BigEndian.encode size value.toNat
  fromBin : ∀ bytes, cb.fromBin bytes = BigEndian.decode bytes
  shareThreshold : ∀ (secret threshold n : Int) (pids : List Int) (drbg : Drbg),
    0 < threshold → threshold ≤ n → pids.length = n →
    ∃ p : Scalar[X], p.degree < threshold.toNat ∧ p.eval 0 = secret ∧
      List.Forall₂ (fun pid value : Int => 0 ≤ value ∧ value < secp256k1Order ∧
          p.eval (pid : Scalar) = value) pids
        (cb.shareThreshold secp256k1Order secret threshold n pids drbg)
  lagrangeInterpolate : ∀ points : List (Int × Int),
    (points.map fun point => (point.1 : Scalar)).Nodup →
    0 ≤ cb.lagrangeInterpolate 0 (points.map Prod.snd) (points.map Prod.fst) secp256k1Order ∧
    cb.lagrangeInterpolate 0 (points.map Prod.snd) (points.map Prod.fst) secp256k1Order <
      secp256k1Order ∧
    (cb.lagrangeInterpolate 0 (points.map Prod.snd) (points.map Prod.fst) secp256k1Order : Scalar) =
      Sharing.interpolateAt 0 (points.map fun point => ((point.1 : Scalar), (point.2 : Scalar)))

/-- AES-256-GCM of OpenSSL. A failing `EVP` call throws the error it returns here. The sizes of
a plaintext and a ciphertext reach it as an `int`, which is what `ExportKey` counts a blob with. -/
structure AesGcm where
  encrypt : (key nonce aad plaintext : Bytes) →
    Except Error (Vector UInt8 plaintext.length × Vector UInt8 kBackupTagSize)
  decrypt : (key nonce aad tag ciphertext : Bytes) → Except Error (Vector UInt8 ciphertext.length)

/-- What has been encrypted decrypts under the same key, nonce and AAD. -/
def AesGcm.Lawful (gcm : AesGcm) : Prop :=
  ∀ key nonce aad plaintext ciphertext tag,
    gcm.encrypt key nonce aad plaintext = .ok (ciphertext, tag) →
    (gcm.decrypt key nonce aad tag.toList ciphertext.toList).map Vector.toList = .ok plaintext

/-- The two sources of `RandomBytes`: the status and the bytes of each call. -/
structure Rng where
  callback : Option (Nat → (len : Nat) → Int × Vector UInt8 len)
  randBytes : Nat → (len : Nat) → Int × Vector UInt8 len

/-! ## The bridge -/

structure BackupCiphertext where
  kind : ShareKind
  scheme : Scheme
  curve : Curve
  keyId : KeyId
  threshold : UInt32
  shareCount : UInt32
  label : Bytes
  /-- nonce, tag and ciphertext -/
  payload : Bytes

/-- `static_cast<int>`. -/
def staticCastInt (n : Nat) : Int := Int.bmod n (2 ^ 32)

def encodeShare (cb : CbMpc Point Paillier Drbg) (pid value : Int) (scalarSize : Nat) : Bytes :=
  kBackupShareVersion :: (cb.toBin scalarSize pid).toList ++ (cb.toBin scalarSize value).toList

def decodeShare (cb : CbMpc Point Paillier Drbg) (data : Bytes) (scalarSize : Nat) :
    Except Error (Int × Int) :=
  if data.length ≠ 1 + scalarSize * 2 then
    .error ⟨.invalidArgument, "invalid backup share length"⟩
  else if data.head? ≠ some kBackupShareVersion then
    .error ⟨.invalidArgument, "unsupported backup share version"⟩
  else
    .ok (cb.fromBin ((data.drop 1).take scalarSize),
      cb.fromBin ((data.drop (1 + scalarSize)).take scalarSize))

/-- The AAD in a call of `EVP_EncryptUpdate` or `EVP_DecryptUpdate`, which fails if the size it is
given is negative. -/
def updateAad (aad : Bytes) : Except Error Bytes := do
  ensure (decide (0 ≤ staticCastInt aad.length)) .crypto "aes gcm aad failed"
  return toMem aad

def aesGcmEncrypt (gcm : AesGcm) (key nonce aad plaintext : Bytes) : Except Error Bytes := do
  ensure (key.length == 32) .invalidArgument "backup key must be 32 bytes"
  ensure (nonce.length == kBackupNonceSize) .invalidArgument "backup nonce size invalid"
  let mem ← updateAad aad
  let (ciphertext, tag) ← gcm.encrypt key nonce mem plaintext
  return nonce ++ tag.toList ++ ciphertext.toList

/-- Without a ciphertext `out_len` still holds the length of the AAD at the end, and the
result is resized to it. -/
def aesGcmDecrypt (gcm : AesGcm) (key aad nonce tag ciphertext : Bytes) :
    Except Error Bytes := do
  ensure (key.length == 32) .invalidArgument "backup key must be 32 bytes"
  let mem ← updateAad aad
  let plaintext ← gcm.decrypt key nonce mem tag ciphertext
  return if ciphertext = [] then List.replicate mem.length 0 else plaintext.toList

/-- `call` numbers the calls to the source. -/
def randomBytes (rng : Rng) (call len : Nat) : Except Error (Vector UInt8 len) :=
  if len = 0 then .ok (Vector.replicate len 0)
  else
    match rng.callback with
    | some callback =>
      if (callback call len).1 ≠ 0 then .error ⟨.rng, "rng callback failed"⟩
      else .ok (callback call len).2
    | none =>
      if 2 ^ 31 - 1 < len then .error ⟨.invalidArgument, "random length too large"⟩
      else if (rng.randBytes call len).1 ≠ 1 then .error ⟨.rng, "RAND_bytes failed"⟩
      else .ok (rng.randBytes call len).2

/-- The checks before anything is computed. -/
def checkBackupArguments (threshold : UInt32) (shareCount : Nat) : Except Error Unit :=
  if threshold < 1 then .error ⟨.invalidArgument, "threshold must be >= 1"⟩
  else if shareCount < threshold.toNat then
    .error ⟨.invalidArgument, "share_count must be >= threshold"⟩
  else if shareCount = 0 then .error ⟨.invalidArgument, "share_count must be > 0"⟩
  else .ok ()

theorem threshold_not_lt_one {threshold : UInt32} : ¬ threshold < 1 ↔ 1 ≤ threshold.toNat := by
  rw [UInt32.lt_iff_toNat_lt, Nat.not_lt]
  rfl

def backupPids (shareCount : Nat) : List Int :=
  (List.range shareCount).map fun i => staticCastInt (i + 1)

/-- The share values of the secret, encoded with their pids. -/
def backupShares (cb : CbMpc Point Paillier Drbg) (secret : Int) (threshold : UInt32)
    (shareCount : Nat) (drbg : Drbg) : List Bytes :=
  List.zipWith (fun pid value => encodeShare cb pid value scalarSize) (backupPids shareCount)
    (cb.shareThreshold secp256k1Order secret (staticCastInt threshold.toNat)
      (staticCastInt shareCount) (backupPids shareCount) drbg)

def createBackup (cb : CbMpc Point Paillier Drbg) (gcm : AesGcm) (rng : Rng)
    (kp : Keypair Point Paillier) (threshold : UInt32) (shareCount : Nat) (label : Bytes) :
    Except Error (BackupCiphertext × List Bytes) := do
  checkBackupArguments threshold shareCount
  let blob ← exportKey cb.converter kp
  let seed ← randomBytes rng 0 32
  let (secret, drbg) := cb.genBn (cb.drbg seed.toList) secp256k1Order
  let nonce ← randomBytes rng 1 kBackupNonceSize
  let payload ← aesGcmEncrypt gcm (cb.toBin scalarSize secret).toList nonce.toList label blob
  return ({ kind := kp.kind, scheme := kp.scheme, curve := kp.curve, keyId := kp.keyId,
            threshold, shareCount := UInt32.ofNat shareCount, label, payload },
    backupShares cb secret threshold shareCount drbg)

/-- `RestoreBackup` up to the interpolation: the pids and values it interpolates. -/
def restorePoints (cb : CbMpc Point Paillier Drbg) (ciphertext : BackupCiphertext)
    (shares : List Bytes) : Except Error (List (Int × Int)) :=
  if ciphertext.threshold < 1 then .error ⟨.invalidArgument, "invalid backup threshold"⟩
  else if shares.length < ciphertext.threshold.toNat then
    .error ⟨.invalidArgument, "insufficient backup shares provided"⟩
  else shares.mapM fun share => decodeShare cb share scalarSize

/-- The threshold decides whether the shares are looked at. -/
theorem restorePoints_threshold {cb : CbMpc Point Paillier Drbg} {ciphertext : BackupCiphertext}
    {shares : List Bytes} (pos : 1 ≤ ciphertext.threshold.toNat)
    (enough : ciphertext.threshold.toNat ≤ shares.length) :
    restorePoints cb ciphertext shares =
      shares.mapM fun share => decodeShare cb share scalarSize := by
  rw [restorePoints, if_neg (threshold_not_lt_one.mpr pos), if_neg (Nat.not_lt.mpr enough)]

theorem restorePoints_refused (cb : CbMpc Point Paillier Drbg) {ciphertext : BackupCiphertext}
    {shares : List Bytes}
    (outside : ¬ (1 ≤ ciphertext.threshold.toNat ∧ ciphertext.threshold.toNat ≤ shares.length)) :
    ∃ err, restorePoints cb ciphertext shares = .error err ∧ err.code = .invalidArgument := by
  unfold restorePoints
  split_ifs with zero few
  · exact ⟨_, rfl, rfl⟩
  · exact ⟨_, rfl, rfl⟩
  · exact absurd ⟨threshold_not_lt_one.mp zero, Nat.not_lt.mp few⟩ outside

def restoreBackup (cb : CbMpc Point Paillier Drbg) (gcm : AesGcm) (ciphertext : BackupCiphertext)
    (shares : List Bytes) : Except Error (Keypair Point Paillier) := do
  let points ← restorePoints cb ciphertext shares
  let secret := cb.lagrangeInterpolate 0 (points.map Prod.snd) (points.map Prod.fst)
    secp256k1Order
  if ciphertext.payload.length < kBackupNonceSize + kBackupTagSize then
    throw ⟨.invalidArgument, "backup ciphertext too short"⟩
  let plaintext ← aesGcmDecrypt gcm (cb.toBin scalarSize secret).toList ciphertext.label
    (ciphertext.payload.take kBackupNonceSize)
    ((ciphertext.payload.drop kBackupNonceSize).take kBackupTagSize)
    (ciphertext.payload.drop (kBackupNonceSize + kBackupTagSize))
  importKey cb.converter plaintext

end MaanyMpc
