import MaanyMpc.Backup.Points
import MaanyMpc.Coordinator.Intake

/-! # The form of a backup

What the bindings and `RestoreBackup` ask of a backup, as a predicate on the fields of a stored
record and on those of the frame it came from. The intake checks none of it. -/

namespace MaanyMpc

variable {σ V : Type}

/-! ## The bindings -/

/-- `napi_get_value_string_utf8`, which leaves the string empty for any other value. -/
def napiString (value : Json) : String := value.asString?.getD ""

/-- `ShareKindFromString`, which is `ParseRole`. -/
def shareKindFromString (value : Json) : Option ShareKind :=
  if napiString value = "device" then some .device
  else if napiString value = "server" then some .server
  else none

def curveFromString (value : Json) : Option Curve :=
  if napiString value = "secp256k1" then some .secp256k1
  else if napiString value = "ed25519" then some .ed25519
  else none

def schemeFromString (value : Json) : Option Scheme :=
  if napiString value = "ecdsa-2p" then some .ecdsa2p
  else if napiString value = "ecdsa-tn" then some .ecdsaThresholdN
  else if napiString value = "schnorr-2p" then some .schnorr2p
  else none

/-! ## The form -/

/-- What a restore asks of the fields of a backup. The keyId is text, to be read like the other
binary fields are when they come without an encoding. -/
structure RestorableFields (kind curve scheme keyId : Json) (threshold shareCount : JsNumber)
    (blob fragment : Bytes) : Prop where
  kind : (shareKindFromString kind).isSome
  curve : (curveFromString curve).isSome
  scheme : (schemeFromString scheme).isSome
  keyId : ∃ bytes, decodeBinary (some keyId) none "keyId" = .ok bytes ∧ bytes.length = 32
  counts : ∃ t n : ℤ, threshold = .finite t ∧ shareCount = .finite n ∧ 1 ≤ t ∧ t ≤ n
  blob : kBackupNonceSize + kBackupTagSize ≤ blob.length
  fragment : WellFormedShare fragment

/-- A stored record can be handed to a restore. -/
def RestorableRecord (encryptor : KeyEncryptor) (record : WalletBackupUpsert) : Prop :=
  ∃ fragment, encryptor.decryptShare record.encryptedCoordinatorFragment = some fragment ∧
    RestorableFields record.ciphertextKind record.ciphertextCurve record.ciphertextScheme
      record.ciphertextKeyId record.ciphertextThreshold record.ciphertextShareCount
      (bufferFromBase64 record.ciphertextBlob) fragment

/-- The same of the fields of a frame. -/
def RestorablePayload (payload : Json) : Prop :=
  ∃ object kind curve scheme keyId threshold shareCount blob fragment,
    payload.get? "ciphertext" = some object ∧ object.get? "kind" = some kind ∧
    object.get? "curve" = some curve ∧ object.get? "scheme" = some scheme ∧
    object.get? "keyId" = some keyId ∧ object.get? "threshold" = some (.number threshold) ∧
    object.get? "shareCount" = some (.number shareCount) ∧
    decodeBinary (object.get? "blob") (object.get? "blobEncoding") "ciphertext.blob" = .ok blob ∧
    decodeBinary (fragmentSource payload) (payload.get? "fragmentEncoding") "fragment" =
      .ok fragment ∧
    RestorableFields kind curve scheme keyId threshold shareCount blob fragment

/-- The draft has the fields of the frame. -/
theorem restorablePayload_iff {intentKeyId : Option Json} {payload : Json} {draft : BackupDraft}
    (h : processBackupShare (some intentKeyId) payload = .ok draft) :
    RestorablePayload payload ↔
      RestorableFields draft.ciphertext.kind draft.ciphertext.curve draft.ciphertext.scheme
        draft.ciphertext.keyId draft.ciphertext.threshold draft.ciphertext.shareCount
        draft.ciphertext.blob draft.fragment := by
  obtain ⟨_, _, hfragment, object, found, parsed⟩ := processBackupShare_eq_ok_iff.mp h
  obtain ⟨⟨hkind, _⟩, ⟨hcurve, _⟩, ⟨hscheme, _⟩, ⟨hkeyId, _⟩, hthreshold, hshareCount, _, hblob⟩ :=
    parseCiphertext_eq_ok_iff.mp parsed
  have hobject := (Option.filter_eq_some_iff.mp found).1
  constructor
  · rintro ⟨object', kind, curve, scheme, keyId, threshold, shareCount, blob, fragment, hobject',
      hkind', hcurve', hscheme', hkeyId', hthreshold', hshareCount', hblob', hfragment', fields⟩
    obtain rfl := Option.some.inj (hobject.symm.trans hobject')
    obtain rfl := Option.some.inj (hkind.symm.trans hkind')
    obtain rfl := Option.some.inj (hcurve.symm.trans hcurve')
    obtain rfl := Option.some.inj (hscheme.symm.trans hscheme')
    obtain rfl := Option.some.inj (hkeyId.symm.trans hkeyId')
    obtain rfl := Json.number.inj (Option.some.inj (hthreshold.symm.trans hthreshold'))
    obtain rfl := Json.number.inj (Option.some.inj (hshareCount.symm.trans hshareCount'))
    obtain rfl := Except.ok.inj (hblob.symm.trans hblob')
    obtain rfl := Except.ok.inj (hfragment.symm.trans hfragment')
    exact fields
  · intro fields
    exact ⟨object, _, _, _, _, _, _, _, _, hobject, hkind, hcurve, hscheme, hkeyId, hthreshold,
      hshareCount, hblob, hfragment, fields⟩

/-- The record has the fields of the draft. -/
theorem restorableRecord_iff {gcm : NodeGcm} (hgcm : gcm.Lawful) (encryptor : Encryptor)
    (iv : Vector UInt8 12) (draft : BackupDraft) :
    RestorableRecord (encryptor.keyEncryptor gcm)
        (draft.record ((encryptor.keyEncryptor gcm).encryptShare iv draft.fragment)) ↔
      RestorableFields draft.ciphertext.kind draft.ciphertext.curve draft.ciphertext.scheme
        draft.ciphertext.keyId draft.ciphertext.threshold draft.ciphertext.shareCount
        draft.ciphertext.blob draft.fragment := by
  have decrypted := encryptor.decryptShare_encryptShare hgcm iv draft.fragment
  simp only [RestorableRecord, BackupDraft.record, bufferFromBase64_encode, decrypted,
    Option.some.injEq, exists_eq_left']

theorem canonical_record (gcm : NodeGcm) (encryptor : Encryptor) (iv : Vector UInt8 12)
    (draft : BackupDraft) :
    (draft.record ((encryptor.keyEncryptor gcm).encryptShare iv draft.fragment)).Canonical :=
  ⟨Base64.canonical_encode _, Base64.canonical_encode _, encryptor.canonical_encryptShare gcm iv _⟩

/-! ## Acknowledged backups -/

/-- A backup that is acknowledged came from a frame, its record is stored, and the record can
be handed to a restore exactly when the frame has the form that this needs. -/
theorem acked_backup_restorable_iff {parse : Bytes → Option Json}
    {storage : CoordinatorStorage σ V} (shipped : Shipped storage) {gcm : NodeGcm}
    (hgcm : gcm.Lawful) (encryptor : Encryptor) {start : σ}
    {taken : List (Server σ × ServerAction)} {events emitted : List ServerEvent}
    {s s' : Server σ} {a : ServerAction}
    (run : (serverMachine ⟨parse, storage, encryptor.keyEncryptor gcm⟩ start).Run taken events s)
    (hstep : Server.step ⟨parse, storage, encryptor.keyEncryptor gcm⟩ s a = some (s', emitted))
    {socket : SocketId} {keyId : Option Json} (acked : .backupAck socket keyId .ok ∈ emitted) :
    ∃ t ∈ s.tasks, t.socket = socket ∧
      Originates ⟨parse, storage, encryptor.keyEncryptor gcm⟩ taken t ∧
      ∃ stamped : Stamped WalletBackupUpsert,
        (∀ now, (storage.apply s'.storage now (.getWalletBackup t.draft.walletId)).1 =
          some (.backup (some stamped))) ∧
        (RestorableRecord (encryptor.keyEncryptor gcm) stamped.record ↔
          RestorablePayload t.payload) := by
  rcases Server.step_storage hstep with ⟨_, quiet⟩ | ⟨t, ht, now, iv, stored, ack⟩
  · exact absurd acked (quiet socket keyId)
  · obtain ⟨rfl, accepted⟩ := ack socket keyId acked
    have origin := run_originates run t ht
    obtain ⟨stamped, same, read⟩ := shipped.upsert_stores
      (canonical_record gcm encryptor iv t.draft) accepted
    refine ⟨t, ht, rfl, origin, stamped, ?_, ?_⟩
    · rw [stored]
      exact read
    · obtain ⟨p, _, raw, c, key, ctx, state, takesIn⟩ := origin
      rw [same, restorablePayload_iff takesIn.draft]
      exact restorableRecord_iff hgcm encryptor iv t.draft

/-- A ciphertext of one byte is acknowledged and stored. -/
theorem short_backup_acknowledged :
    ∃ events s', (serverMachine (sampleBackupOptions "w") .new).Run (sampleTaken "w") events
        (sampleWaiting "w") ∧
      Server.step (sampleBackupOptions "w") (sampleWaiting "w")
        (.complete 0 1 (some (Vector.replicate 12 0))) =
          some (s', [.backupAck 0 (some (.string "w")) .ok]) ∧
      ∃ stamped : Stamped WalletBackupUpsert,
        ((memoryStorage noValues).apply s'.storage 2 (.getWalletBackup "w")).1 =
          some (.backup (some stamped)) ∧
        ¬ RestorableRecord PlaintextKeyEncryptor stamped.record := by
  have other : sampleKeyHelloText "w" ≠ sampleBackupText := by decide +kernel
  obtain ⟨events, run⟩ := sample_run other
  obtain ⟨s', stored, after, _⟩ := sample_stored other
  refine ⟨events, s', run, stored, _, after, ?_⟩
  rintro ⟨fragment, _, fields⟩
  have blob : bufferFromBase64 sampleRecord.ciphertextBlob = [0] := bufferFromBase64_encode [0]
  have long : 28 ≤ (bufferFromBase64 sampleRecord.ciphertextBlob).length := fields.blob
  rw [blob] at long
  exact absurd long (by decide)

/-- What is said of it when it is acknowledged. -/
theorem acked_backup_restorable_iff_short :
    ∃ s' emitted, Server.step (sampleBackupOptions "w") (sampleWaiting "w")
        (.complete 0 1 (some (Vector.replicate 12 0))) = some (s', emitted) ∧
      ∃ t ∈ (sampleWaiting "w").tasks, t.socket = 0 ∧
        Originates (sampleBackupOptions "w") (sampleTaken "w") t ∧
        ∃ stamped : Stamped WalletBackupUpsert,
          (∀ now, ((memoryStorage noValues).apply s'.storage now
            (.getWalletBackup t.draft.walletId)).1 = some (.backup (some stamped))) ∧
          (RestorableRecord PlaintextKeyEncryptor stamped.record ↔
            RestorablePayload t.payload) := by
  have other : sampleKeyHelloText "w" ≠ sampleBackupText := by decide +kernel
  obtain ⟨events, run⟩ := sample_run other
  obtain ⟨s', stored, _, _⟩ := sample_stored other
  exact ⟨s', _, stored, acked_backup_restorable_iff (.memory noValues) sampleNodeGcm_lawful
    .plaintext run stored (List.mem_singleton_self _)⟩

end MaanyMpc
