import MaanyMpc.Backup.Reached

/-! # The metadata of a backup

Beside its payload an artifact has a label, the kind, scheme, curve and id of the key, the
threshold and the share count. The label is authenticated with the payload. `RestoreBackup`
compares the threshold with the number of shares and reads none of the others. -/

namespace MaanyMpc

variable {Point Paillier Drbg : Type} {cb : CbMpc Point Paillier Drbg} {gcm : AesGcm}

/-- A call of `CreateBackup` that has returned. -/
structure BackupRun (cb : CbMpc Point Paillier Drbg) (gcm : AesGcm) where
  rng : Rng
  kp : Keypair Point Paillier
  threshold : UInt32
  shareCount : Nat
  label : Bytes
  ciphertext : BackupCiphertext
  shares : List Bytes
  created : createBackup cb gcm rng kp threshold shareCount label = .ok (ciphertext, shares)

/-- What the call has encrypted. -/
structure BackupRun.Encrypted (r : BackupRun cb gcm) (key nonce aad plaintext : Bytes) :
    Prop where
  key : ∃ seed, randomBytes r.rng 0 32 = .ok seed ∧
    key = (cb.toBin scalarSize (cb.genBn (cb.drbg seed.toList) secp256k1Order).1).toList
  nonce : ∃ drawn, randomBytes r.rng 1 kBackupNonceSize = .ok drawn ∧ nonce = drawn.toList
  aad : aad = toMem r.label
  plaintext : exportKey cb.converter r.kp = .ok plaintext

/-- The ideal cipher: a nonce, a tag, a ciphertext and an AAD decrypt only as they were when
something was encrypted, under its key and to the same. -/
def AesGcm.Ideal (gcm : AesGcm) (encrypted : (key nonce aad plaintext : Bytes) → Prop) : Prop :=
  ∀ key nonce aad tag ciphertext opened, gcm.decrypt key nonce aad tag ciphertext = .ok opened →
    encrypted key nonce aad opened.toList ∧
    (gcm.encrypt key nonce aad opened.toList).map (fun sealed =>
      (sealed.1.toList, sealed.2.toList)) = .ok (ciphertext, tag)

/-- The keypair is the one that the artifact describes. -/
def BackupCiphertext.Describes (artifact : BackupCiphertext) (kp : Keypair Point Paillier) :
    Prop :=
  kp.kind = artifact.kind ∧ kp.scheme = artifact.scheme ∧ kp.curve = artifact.curve ∧
    kp.keyId = artifact.keyId

/-! ## What a call has recorded and encrypted -/

namespace BackupRun

variable (r : BackupRun cb gcm)

theorem recorded : r.ciphertext.Describes r.kp ∧ r.ciphertext.threshold = r.threshold ∧
    r.ciphertext.shareCount = UInt32.ofNat r.shareCount ∧ r.ciphertext.label = r.label := by
  have created := r.created
  simp only [createBackup, Fallible.bind_eq_ok] at created
  obtain ⟨_, _, _, _, _, _, _, _, _, _, result⟩ := created
  rw [← (Prod.mk.inj (Except.ok.inj result)).1]
  exact ⟨⟨rfl, rfl, rfl, rfl⟩, rfl, rfl, rfl⟩

variable {r}

/-- The payload is the nonce, the tag and the ciphertext of the one encryption. -/
theorem Encrypted.payload {key nonce aad plaintext : Bytes}
    (h : r.Encrypted key nonce aad plaintext) :
    aesGcmEncrypt gcm key nonce r.label plaintext = .ok r.ciphertext.payload := by
  obtain ⟨⟨seed, seeded, rfl⟩, ⟨drawn, drew, rfl⟩, _, exported⟩ := h
  have created := r.created
  simp only [createBackup, Fallible.bind_eq_ok] at created
  obtain ⟨_, _, blob, exported', seed', seeded', drawn', drew', payload, encrypted, result⟩ :=
    created
  obtain rfl : plaintext = blob := Except.ok.inj (exported.symm.trans exported')
  obtain rfl : seed = seed' := Except.ok.inj (seeded.symm.trans seeded')
  obtain rfl : drawn = drawn' := Except.ok.inj (drew.symm.trans drew')
  rw [← (Prod.mk.inj (Except.ok.inj result)).1]
  exact encrypted

end BackupRun

/-! ## What a restore has decrypted -/

/-- What `AesGcmDecrypt` returns for a ciphertext. -/
theorem aesGcmDecrypt_eq_ok {key aad nonce tag ciphertext plaintext : Bytes}
    (h : aesGcmDecrypt gcm key aad nonce tag ciphertext = .ok plaintext) :
    ∃ opened, gcm.decrypt key nonce (toMem aad) tag ciphertext = .ok opened ∧
      (ciphertext ≠ [] → plaintext = opened.toList) := by
  simp only [aesGcmDecrypt, Fallible.bind_eq_ok] at h
  obtain ⟨_, _, mem, updated, opened, decrypted, result⟩ := h
  obtain rfl := (updateAad_eq_ok.mp updated).2
  refine ⟨opened, decrypted, ?_⟩
  intro some
  rw [if_neg some] at result
  exact (Except.ok.inj result).symm

/-- A payload that is opened has all three parts. -/
theorem openBackup_eq_ok {artifact : BackupCiphertext} {shares : List Bytes} {plaintext : Bytes}
    (h : openBackup cb gcm artifact shares = .ok plaintext) :
    ∃ key nonce tag ciphertext, artifact.payload = nonce ++ tag ++ ciphertext ∧
      nonce.length = kBackupNonceSize ∧ tag.length = kBackupTagSize ∧
      aesGcmDecrypt gcm key artifact.label nonce tag ciphertext = .ok plaintext := by
  unfold openBackup at h
  rw [Fallible.bind_eq_ok] at h
  obtain ⟨points, _, h⟩ := h
  by_cases short : artifact.payload.length < kBackupNonceSize + kBackupTagSize
  · rw [if_pos short] at h
    cases h
  · rw [if_neg short] at h
    refine ⟨_, _, _, _, ?_, ?_, ?_, h⟩
    · rw [← List.drop_drop, List.append_assoc, List.take_append_drop, List.take_append_drop]
    · rw [List.length_take]
      omega
    · rw [List.length_take, List.length_drop]
      omega

/-- With the ideal cipher, what is opened is what some call has encrypted, and its payload and
what the cipher sees of its label are those of the call. -/
theorem openBackup_encrypted (h : cb.converter.Lawful) {backups : Set (BackupRun cb gcm)}
    (ideal : gcm.Ideal fun key nonce aad plaintext =>
      ∃ r ∈ backups, r.Encrypted key nonce aad plaintext)
    {artifact : BackupCiphertext} {shares : List Bytes} {plaintext : Bytes}
    (opened : openBackup cb gcm artifact shares = .ok plaintext) :
    ∃ r ∈ backups, toMem artifact.label = toMem r.label ∧
      artifact.payload = r.ciphertext.payload ∧ exportKey cb.converter r.kp = .ok plaintext := by
  obtain ⟨key, nonce, tag, ciphertext, payload, _, _, opened⟩ := openBackup_eq_ok opened
  obtain ⟨blob, decrypted, whole⟩ := aesGcmDecrypt_eq_ok opened
  obtain ⟨⟨r, mem, encrypted⟩, sealed⟩ := ideal _ _ _ _ _ _ decrypted
  obtain ⟨_, _, _, ciphertext', tag', made, payload'⟩ := aesGcmEncrypt_eq_ok encrypted.payload
  rw [encrypted.aad, made] at sealed
  have same : ciphertext'.toList = ciphertext ∧ tag'.toList = tag :=
    Prod.mk.inj (Except.ok.inj sealed)
  have nonempty : ciphertext ≠ [] := by
    have size : blob.toList.length = ciphertext.length := Vector.length_toList
    have some := exportKey_ne_nil h encrypted.plaintext
    rw [← List.length_pos_iff] at some ⊢
    omega
  refine ⟨r, mem, encrypted.aad, ?_, ?_⟩
  · rw [payload, payload', same.1, same.2]
  · rw [whole nonempty]
    exact encrypted.plaintext

theorem restorePoints_of_restoreBackup {artifact : BackupCiphertext} {shares : List Bytes}
    {kp : Keypair Point Paillier} (restored : restoreBackup cb gcm artifact shares = .ok kp) :
    1 ≤ artifact.threshold.toNat ∧ artifact.threshold.toNat ≤ shares.length := by
  by_contra outside
  obtain ⟨err, refused, _⟩ := restorePoints_refused cb outside
  rw [restoreBackup, refused] at restored
  cases restored

/-- An artifact with the same label and payload restores the same key. -/
theorem restoreBackup_altered {artifact altered : BackupCiphertext} {shares : List Bytes}
    {kp : Keypair Point Paillier} (restored : restoreBackup cb gcm artifact shares = .ok kp)
    (label : altered.label = artifact.label) (payload : altered.payload = artifact.payload)
    (pos : 1 ≤ altered.threshold.toNat) (enough : altered.threshold.toNat ≤ shares.length) :
    restoreBackup cb gcm altered shares = .ok kp := by
  obtain ⟨pos', enough'⟩ := restorePoints_of_restoreBackup restored
  rw [← restored, restoreBackup, restoreBackup, restorePoints_threshold pos enough,
    restorePoints_threshold pos' enough', label, payload]

/-- The cipher is given all of the label and of the payload. -/
def BackupCiphertext.Fits (artifact : BackupCiphertext) : Prop :=
  artifact.label.length < 2 ^ 31 ∧ artifact.payload.length < 2 ^ 31

/-- A restored key is one that was backed up, with the label and the payload of that backup,
and what the backup has recorded describes it. All other metadata may be anything, as long as
the threshold is between one and the number of shares. -/
theorem restored_key_is_backed_up (h : cb.converter.Lawful) (backups : Set (BackupRun cb gcm))
    (ideal : gcm.Ideal fun key nonce aad plaintext =>
      ∃ r ∈ backups, r.Encrypted key nonce aad plaintext)
    (genuine : ∀ r ∈ backups, r.ciphertext.Fits) (artifact : BackupCiphertext)
    (fits : artifact.Fits) (shares : List Bytes) (kp : Keypair Point Paillier)
    (restored : restoreBackup cb gcm artifact shares = .ok kp) :
    (∃ r ∈ backups, artifact.label = r.ciphertext.label ∧
      artifact.payload = r.ciphertext.payload ∧ kp = r.kp ∧ r.ciphertext.Describes kp ∧
      r.ciphertext.threshold = r.threshold ∧
      r.ciphertext.shareCount = UInt32.ofNat r.shareCount) ∧
    ∀ altered : BackupCiphertext, altered.label = artifact.label →
      altered.payload = artifact.payload →
      (1 ≤ altered.threshold.toNat ∧ altered.threshold.toNat ≤ shares.length →
        restoreBackup cb gcm altered shares = .ok kp) ∧
      (¬ (1 ≤ altered.threshold.toNat ∧ altered.threshold.toNat ≤ shares.length) →
        ∃ err, restoreBackup cb gcm altered shares = .error err ∧
          err.code = .invalidArgument) := by
  refine ⟨?_, ?_⟩
  · have both := restored
    rw [restoreBackup_eq, Fallible.bind_eq_ok] at both
    obtain ⟨plaintext, opened, imported⟩ := both
    obtain ⟨r, mem, label, payload, exported⟩ := openBackup_encrypted h ideal opened
    obtain ⟨describes, threshold, count, label'⟩ := r.recorded
    rw [importKey_exportKey h exported] at imported
    obtain rfl : r.kp = kp := Except.ok.inj imported
    rw [← label', toMem_eq_self_iff.mpr fits.1, toMem_eq_self_iff.mpr (genuine r mem).1] at label
    exact ⟨r, mem, label, payload, rfl, describes, threshold, count⟩
  · intro altered label payload
    constructor
    · intro inside
      exact restoreBackup_altered restored label payload inside.1 inside.2
    · intro outside
      obtain ⟨err, refused, code⟩ := restorePoints_refused cb outside
      exact ⟨err, by rw [restoreBackup, refused]; rfl, code⟩

/-! ## An artifact with another kind -/

def sampleBlob : Bytes :=
  ((KeyBlob.convert sampleConverter).write sampleKeypair.blob).getD []

/-- The backup key and the generator behind it. -/
def sampleSecret : Int × Int :=
  sampleCb.genBn (sampleCb.drbg (List.replicate 32 1)) secp256k1Order

def sampleKey : Bytes := (sampleCb.toBin scalarSize sampleSecret.1).toList

/-- A cipher that has encrypted the sample key, and nothing else. -/
def sealedGcm : AesGcm where
  encrypt key nonce aad plaintext :=
    if key = sampleKey ∧ nonce = List.replicate 12 2 ∧ aad = [1] ∧ plaintext = sampleBlob then
      sampleGcm.encrypt key nonce aad plaintext
    else .error ⟨.crypto, "aes gcm init failed"⟩
  decrypt key nonce aad tag ciphertext :=
    if key = sampleKey ∧ nonce = List.replicate 12 2 ∧ aad = [1] ∧ ciphertext = sampleBlob then
      sampleGcm.decrypt key nonce aad tag ciphertext
    else .error ⟨.crypto, "aes gcm final failed"⟩

theorem sealedGcm_lawful : sealedGcm.Lawful := by
  intro key nonce aad plaintext ciphertext tag encrypted
  simp only [sealedGcm] at encrypted
  split at encrypted
  next recorded =>
    have same := encrypted
    simp only [sampleGcm, Except.ok.injEq, Prod.mk.injEq] at same
    have kept : ciphertext.toList = plaintext := by
      rw [← same.1]
      simp
    simp only [sealedGcm]
    rw [if_pos ⟨recorded.1, recorded.2.1, recorded.2.2.1, kept.trans recorded.2.2.2⟩]
    exact sampleGcm_lawful key nonce aad plaintext ciphertext tag encrypted
  · cases encrypted

def sampleRun : BackupRun sampleCb sealedGcm where
  rng := sampleRng
  kp := sampleKeypair
  threshold := 2
  shareCount := 3
  label := [1]
  ciphertext :=
    { kind := .device, scheme := .ecdsa2p, curve := .secp256k1, keyId := sampleKeypair.keyId,
      threshold := 2, shareCount := 3, label := [1],
      payload := List.replicate 12 2 ++
        BigEndian.encode kBackupTagSize (BigEndian.decode sampleKey) ++ sampleBlob }
  shares := backupShares sampleCb sampleSecret.1 2 3 sampleSecret.2
  created := rfl

theorem sealedGcm_ideal : sealedGcm.Ideal fun key nonce aad plaintext =>
    ∃ r ∈ ({sampleRun} : Set (BackupRun sampleCb sealedGcm)),
      r.Encrypted key nonce aad plaintext := by
  intro key nonce aad tag ciphertext opened decrypted
  simp only [sealedGcm] at decrypted
  split at decrypted
  next recorded =>
    obtain ⟨rfl, rfl, rfl, rfl⟩ := recorded
    simp only [sampleGcm] at decrypted
    split at decrypted
    next authentic =>
      obtain rfl := Except.ok.inj decrypted
      refine ⟨⟨sampleRun, rfl, ⟨_, rfl, rfl⟩, ⟨_, rfl, rfl⟩, rfl, ?_⟩, ?_⟩
      · simp
        rfl
      · simp [sealedGcm, sampleGcm, authentic, Except.map]
    · cases decrypted
  · cases decrypted

/-- The same with another kind and another share count. -/
def sampleAltered : BackupCiphertext :=
  { sampleRun.ciphertext with kind := .server, shareCount := 9 }

theorem sampleAltered_restores :
    restoreBackup sampleCb sealedGcm sampleAltered (sampleRun.shares.take 2) =
      .ok sampleKeypair := by
  have genuine : restoreBackup sampleCb sealedGcm sampleRun.ciphertext
      (sampleRun.shares.take 2) = .ok sampleKeypair :=
    backup_round_trip sampleCb_lawful sealedGcm_lawful sampleRun.created (by decide)
      (List.take_subset ..) (by decide +kernel) (by decide +kernel)
  exact restoreBackup_altered genuine rfl rfl (by decide) (by decide +kernel)

theorem sampleRun_fits : sampleRun.ciphertext.Fits := by
  constructor <;> decide +kernel

/-- The restored key is not the server's, and no backup recorded nine shares. -/
theorem altered_metadata_restores :
    ¬ ∀ (gcm : AesGcm) (backups : Set (BackupRun sampleCb gcm)),
      (gcm.Ideal fun key nonce aad plaintext =>
        ∃ r ∈ backups, r.Encrypted key nonce aad plaintext) →
      ∀ artifact shares kp, restoreBackup sampleCb gcm artifact shares = .ok kp →
        artifact.Describes kp ∧ ∃ r ∈ backups, artifact.threshold = r.ciphertext.threshold ∧
          artifact.shareCount = r.ciphertext.shareCount := by
  intro matching
  obtain ⟨⟨kind, _⟩, _⟩ := matching sealedGcm {sampleRun} sealedGcm_ideal _ _ _
    sampleAltered_restores
  cases kind

theorem restored_key_is_backed_up_altered :
    sampleAltered.payload = sampleRun.ciphertext.payload ∧
      sampleRun.ciphertext.Describes sampleKeypair := by
  obtain ⟨⟨r, rfl, _, payload, _, describes, _⟩, _⟩ := restored_key_is_backed_up
    sampleConverter_lawful {sampleRun} sealedGcm_ideal (by rintro _ ⟨rfl⟩; exact sampleRun_fits) _
    sampleRun_fits _ _ sampleAltered_restores
  exact ⟨payload, describes⟩

end MaanyMpc
