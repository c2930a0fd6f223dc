import MaanyMpc.Bindings.BackupReads
import MaanyMpc.Backup.Import

/-! # Backups between the bindings

What `backupCreate` of either binding has written, `backupRestore` of either reads back, if it has
written no text that it does not know itself. -/

namespace MaanyMpc

/-! ## What is written -/

theorem tryCopyOutBuffer_ok {allocated : Bool} {src : Bytes}
    (ok : (tryCopyOutBuffer allocated src).1 = .ok) :
    (tryCopyOutBuffer allocated src).2 = copyOutBuffer src := by
  cases src with
  | nil => rfl
  | cons byte rest =>
      obtain empty | rfl := (tryCopyOutBuffer_status allocated _).mp ok
      · cases empty
      · rfl

theorem copyOutBuffer_filled {src : Bytes} (filled : src ≠ []) :
    copyOutBuffer src = .bytes src := by
  cases src with
  | nil => exact absurd rfl filled
  | cons byte rest => rfl

/-- The loop leaves what is before share `i` and writes the rest. -/
theorem copyOutShares_ok {shareCount : Nat} {malloc : Nat → Bool} {shares : List Bytes}
    {calls i : Nat} {out : Vector Buf shareCount} (rest : i + shares.length = shareCount)
    (ok : (copyOutShares malloc calls i shares out).1 = .ok) :
    (copyOutShares malloc calls i shares out).2.toList =
      out.toList.take i ++ shares.map copyOutBuffer := by
  induction shares generalizing calls i out with
  | nil =>
      obtain rfl : i = shareCount := rest
      rw [copyOutShares, List.map_nil, List.append_nil, List.take_of_length_le]
      exact out.length_toList.le
  | cons share shares ih =>
      rw [List.length_cons] at rest
      simp only [copyOutShares, ne_eq, ite_not] at ok ⊢
      split_ifs at ok ⊢ with copied
      · have slot : i < (out.toList.set i (copyOutBuffer share)).length := by
          rw [List.length_set, Vector.length_toList]
          omega
        rw [ih (by omega) ok, tryCopyOutBuffer_ok copied, Vector.toList_setIfInBounds,
          List.take_succ_eq_append_getElem slot, List.take_set_of_le le_rfl, List.getElem_set_self,
          List.append_assoc, List.map_cons, List.singleton_append]
      · exact absurd ok copied

variable {Point Paillier Drbg : Type} {cb : CbMpc Point Paillier Drbg} {gcm : AesGcm}

/-- What a backup leaves in the caller's structures. -/
structure Written (cipher : MaanyMpcBackupCiphertext) (shares : List Buf) : Prop where
  kind : cipher.kind.Declared
  curve : cipher.curve = .secp256k1
  label : ∃ data, cipher.label = copyOutBuffer data
  blob : ∃ data, data ≠ [] ∧ cipher.ciphertext = .bytes data
  share : ∀ share ∈ shares, ∃ data, data ≠ [] ∧ share = .bytes data

theorem writeBackup_ok {shareCount : Nat} {malloc : Nat → Bool} {artifact : BackupCiphertext}
    {shares : List Bytes} {ciphertext : MaanyMpcBackupCiphertext} {out : Vector Buf shareCount}
    (ok : (writeBackup malloc artifact shares ciphertext out).1 = .ok) :
    (writeBackup malloc artifact shares ciphertext out).2.1 =
      { artifact with
        label := copyOutBuffer artifact.label, ciphertext := copyOutBuffer artifact.payload } ∧
    (writeBackup malloc artifact shares ciphertext out).2.2.toList = shares.map copyOutBuffer := by
  simp only [writeBackup, ne_eq, ite_not] at ok ⊢
  split_ifs at ok ⊢ with label payload count
  · rw [tryCopyOutBuffer_ok label, tryCopyOutBuffer_ok payload]
    exact ⟨rfl, copyOutShares_ok ((Nat.zero_add _).trans count) ok⟩
  · exact absurd ok payload
  · exact absurd ok label

theorem Keypair.written (kp : Keypair Point Paillier) :
    kp.kind.Declared ∧ kp.curve = .secp256k1 := by
  refine ⟨(toParty_eq_ok_iff kp.kind).mp ⟨_, kp.role_eq⟩, ?_⟩
  have curve := kp.curve_eq
  rw [fromCbCurve] at curve
  split_ifs at curve
  exact (Except.ok.inj curve).symm

theorem createBackup_keypair {rng : Rng} {kp : Keypair Point Paillier} {threshold : UInt32}
    {shareCount : Nat} {label : Bytes} {artifact : BackupCiphertext} {shares : List Bytes}
    (created : createBackup cb gcm rng kp threshold shareCount label = .ok (artifact, shares)) :
    artifact.kind = kp.kind ∧ artifact.curve = kp.curve ∧ artifact.scheme = kp.scheme := by
  simp only [createBackup, Fallible.bind_eq_ok] at created
  obtain ⟨_, _, _, _, _, _, _, _, _, _, result⟩ := created
  obtain ⟨rfl, _⟩ := Prod.mk.inj (Except.ok.inj result)
  exact ⟨rfl, rfl, rfl⟩

theorem written_of_backupCreate (each : cb.SharesEach) {ctx : Option MaanyMpcCtx}
    {kp : Option (MaanyMpcKp Point Paillier)} {threshold : UInt32} {shareCount : Nat}
    {label : Option Buf} {heap : Heap} {malloc : Nat → Bool} {out : BackupOutputs shareCount}
    {cipher : MaanyMpcBackupCiphertext} {shares : Vector Buf shareCount}
    (accepted : ¬ BackupRefused cb gcm ctx kp threshold shareCount label heap)
    (created : maanyMpcBackupCreate cb gcm ctx kp threshold shareCount label heap malloc out =
      (.ok, ⟨some cipher, some shares⟩)) : Written cipher shares.toList := by
  obtain ⟨rng, keypair, artifact, dealt, made, run⟩ := maanyMpcBackupCreate_of_not_refused accepted
  obtain ⟨_, payload, _, filled⟩ := createBackup_outputs each made
  obtain ⟨kind, curve, _⟩ := createBackup_keypair made
  rw [run] at created
  obtain ⟨_ | ciphertext, _ | slots⟩ := out
  · cases created
  · cases created
  · cases created
  · simp only [Prod.mk.injEq, BackupOutputs.mk.injEq, Option.some.injEq] at created
    obtain ⟨ok, rfl, rfl⟩ := created
    obtain ⟨fields, buffers⟩ := writeBackup_ok ok
    rw [fields, buffers]
    refine ⟨kind ▸ keypair.written.1, curve ▸ keypair.written.2, ⟨_, rfl⟩,
      ⟨_, payload, copyOutBuffer_filled payload⟩, fun share mem => ?_⟩
    obtain ⟨data, dealt, rfl⟩ := List.mem_map.mp mem
    exact ⟨data, filled data dealt, copyOutBuffer_filled (filled data dealt)⟩

/-! ## Texts -/

theorem textOf_shareKind {kind : ShareKind} (declared : kind.Declared) :
    TextOf shareKind? kind (.string (shareKindToString kind)) := by
  obtain rfl | rfl := declared <;> exact ⟨_, rfl, by decide⟩

theorem textOf_curve {curve : Curve} (same : curve = .secp256k1) :
    TextOf curve? curve (.string (curveToString curve)) := by
  subst same
  exact ⟨_, rfl, by decide⟩

theorem textOf_scheme {scheme : Scheme} (declared : scheme.Declared) :
    TextOf scheme? scheme (.string (schemeToString scheme)) := by
  obtain rfl | rfl | rfl := declared <;> exact ⟨_, rfl, by decide⟩

theorem scheme_unknown {scheme : Scheme} (undeclared : ¬ scheme.Declared) :
    ¬ Known scheme? (.string (schemeToString scheme)) := by
  cases scheme with
  | undeclared raw h =>
      rintro ⟨_, _, same, known⟩
      cases same
      have unknown : scheme? "unknown" = none := by decide
      cases unknown.symm.trans known
  | ecdsa2p => exact absurd (.inl rfl) undeclared
  | ecdsaThresholdN => exact absurd (.inr (.inl rfl)) undeclared
  | schnorr2p => exact absurd (.inr (.inr rfl)) undeclared

/-! ## Reading it back -/

theorem labelBuf_content {label : Buf} (copied : ∃ data, label = copyOutBuffer data) :
    JsBackupRestore.labelBuf label.content = label := by
  obtain ⟨data, rfl⟩ := copied
  cases data <;> rfl

theorem keyId_eq (keyId : KeyId) (size : keyId.bytes.toList.length = 32) :
    (⟨⟨keyId.bytes.toList.toArray, size⟩⟩ : KeyId) = keyId := by
  obtain ⟨⟨bytes, size⟩⟩ := keyId
  simp

section Read

variable {cipher : MaanyMpcBackupCiphertext} {shares chosen : List Buf}

namespace JsBackupRestore

variable {napi : NapiObjects} (documented : napi.Documented)

include documented

theorem ciphertext_written (written : Written cipher shares) (declared : cipher.scheme.Declared) :
    Gives (ciphertext napi (writeCiphertext cipher)) cipher := by
  obtain ⟨blob, filled, same⟩ := written.blob
  have size : cipher.keyId.bytes.toList.length = 32 := Vector.length_toList
  have content : cipher.ciphertext.content = blob := by rw [same]; rfl
  have threshold := documented.uint32 cipher.threshold
  have shareCount := documented.uint32 cipher.shareCount
  rw [Gives, ciphertext_texts documented (textOf_shareKind written.kind)
    (textOf_curve written.curve) (textOf_scheme declared)]
  simp only [writeCiphertext]
  rw [field_gives documented (keyId_gives documented size),
    field_gives documented (label_bytes documented _), content,
    field_gives documented (blob_gives documented filled), threshold, shareCount,
    Option.getD_some, Option.getD_some, labelBuf_content written.label, keyId_eq, ← same]
  rfl

theorem shares_written (filled : ∀ share ∈ chosen, ∃ data, data ≠ [] ∧ share = .bytes data) :
    Gives ((chosen.map writeShare).mapM (share napi)) chosen := by
  induction chosen with
  | nil => rfl
  | cons first chosen ih =>
      rw [List.forall_mem_cons] at filled
      obtain ⟨⟨data, filled, rfl⟩, rest⟩ := filled
      have read : Gives (share napi (writeShare (.bytes data))) (.bytes data) :=
        share_gives documented filled
      rw [Gives, List.map_cons, List.mapM_cons, NapiM.bind_of_eq read,
        NapiM.bind_of_eq (ih rest)]
      rfl

theorem read_written (written : Written cipher shares) (declared : cipher.scheme.Declared)
    (drawn : chosen ⊆ shares) (enough : cipher.threshold.toNat ≤ chosen.length) :
    read napi (writeBackupObjects cipher chosen) none = some (some ⟨cipher, chosen⟩, none) := by
  have filled := fun share mem => written.share share (drawn mem)
  rw [writeBackupObjects, read_object,
    NapiM.bind_of_eq (ciphertext_written documented written declared), call, List.length_map,
    if_neg (Nat.not_lt.mpr enough),
    NapiM.bind_of_eq (shares_written documented filled)]
  rfl

end JsBackupRestore

namespace BackupRestore

variable {jsi : JsiObjects} (documented : jsi.Documented)

theorem bind_ok {α β : Type} {m : JsiM α} {f : α → JsiM β} {a : α}
    (h : m.run = some (.ok a)) : (m >>= f).run = (f a).run := by
  change (m.run.bind _) = _
  rw [h]
  rfl

theorem bind_error {α β : Type} {m : JsiM α} {f : α → JsiM β} {err : BindingError}
    (h : m.run = some (.error err)) : (m >>= f).run = some (.error err) := by
  change (m.run.bind _) = _
  rw [h]
  rfl

theorem uint32_written (n : UInt32) : (uint32 (.number n.toNat)).run = some (.ok n) := by
  have inside : 0 ≤ (n.toNat : ℤ) ∧ (n.toNat : ℤ) < 2 ^ 32 :=
    ⟨by omega, by exact_mod_cast n.toNat_lt⟩
  rw [uint32, if_pos inside, Int.toNat_natCast, UInt32.ofNat_toNat]
  rfl

theorem keyId_written (keyId : KeyId) :
    (BackupRestore.keyId (.uint8Array keyId.bytes.toList)).run = some (.ok keyId) := by
  have size : keyId.bytes.toList.length = 32 := Vector.length_toList
  rw [BackupRestore.keyId, toByteVector, pure_bind, dif_pos size, keyId_eq]
  rfl

theorem blob_written {bytes : Bytes} (filled : bytes ≠ []) :
    (blob (.uint8Array bytes)).run = some (.ok bytes) := by
  rw [blob, toByteVector, pure_bind, if_neg filled]
  rfl

include documented

theorem ciphertext_written (written : Written cipher shares) (declared : cipher.scheme.Declared) :
    (ciphertext jsi (writeCiphertext cipher)).run = some (.ok cipher) := by
  obtain ⟨blob, filled, same⟩ := written.blob
  have content : cipher.ciphertext.content = blob := by rw [same]; rfl
  simp only [ciphertext, writeCiphertext, documented.property, content]
  rw [parseShareKind, parseCurve, parseScheme,
    bind_ok (enumeration_known (textOf_shareKind written.kind)),
    bind_ok (enumeration_known (textOf_curve written.curve)),
    bind_ok (enumeration_known (textOf_scheme declared)), bind_ok (uint32_written _),
    bind_ok (uint32_written _), bind_ok (keyId_written cipher.keyId), toByteVector, pure_bind,
    bind_ok (blob_written filled), labelBuf_content written.label, ← same]
  rfl

theorem ciphertext_undeclared (written : Written cipher shares)
    (undeclared : ¬ cipher.scheme.Declared) :
    ∃ err, (ciphertext jsi (writeCiphertext cipher)).run = some (.error err) := by
  have unknown := scheme_unknown undeclared
  obtain ⟨err, threw⟩ :
      ∃ err, (parseScheme (.string (schemeToString cipher.scheme))).run = some (.error err) :=
    enumeration_unknown unknown
  refine ⟨err, ?_⟩
  simp only [ciphertext, writeCiphertext, documented.property]
  rw [parseShareKind, parseCurve, bind_ok (enumeration_known (textOf_shareKind written.kind)),
    bind_ok (enumeration_known (textOf_curve written.curve)), bind_error threw]

theorem shares_written (filled : ∀ share ∈ chosen, ∃ data, data ≠ [] ∧ share = .bytes data) :
    ((chosen.map writeShare).mapM (share jsi)).run = some (.ok chosen) := by
  induction chosen with
  | nil => rfl
  | cons first chosen ih =>
      rw [List.forall_mem_cons] at filled
      obtain ⟨⟨data, filled, rfl⟩, rest⟩ := filled
      have read : (share jsi (writeShare (.bytes data))).run = some (.ok (.bytes data)) := by
        rw [share, documented.property, writeShare, Buf.content, toByteVector, pure_bind,
          if_neg filled]
        rfl
      rw [List.map_cons, List.mapM_cons, bind_ok read, bind_ok (ih rest)]
      rfl

theorem read_written (written : Written cipher shares) (declared : cipher.scheme.Declared)
    (drawn : chosen ⊆ shares) (enough : cipher.threshold.toNat ≤ chosen.length) :
    (read jsi (writeBackupObjects cipher chosen)).run = some (.ok ⟨cipher, chosen⟩) := by
  have filled := fun share mem => written.share share (drawn mem)
  rw [writeBackupObjects, read_object, bind_ok (ciphertext_written documented written declared),
    call, List.length_map, if_neg (Nat.not_lt.mpr enough),
    bind_ok (shares_written documented filled)]
  rfl

end BackupRestore

end Read

/-! ## Between the bindings -/

/-- The addon reads what was written, and so does the host object. -/
def Exchanged (napi : NapiObjects) (jsi : JsiObjects) (cipher : MaanyMpcBackupCiphertext)
    (chosen : List Buf) : Prop :=
  JsBackupRestore.read napi (writeBackupObjects cipher chosen) none =
      some (some ⟨cipher, chosen⟩, none) ∧
    (BackupRestore.read jsi (writeBackupObjects cipher chosen)).run = some (.ok ⟨cipher, chosen⟩)

/-- What the addon does is undefined, and the host object throws. -/
def Lost (napi : NapiObjects) (jsi : JsiObjects) (cipher : MaanyMpcBackupCiphertext)
    (chosen : List Buf) : Prop :=
  JsBackupRestore.read napi (writeBackupObjects cipher chosen) none = none ∧
    ∃ err, (BackupRestore.read jsi (writeBackupObjects cipher chosen)).run = some (.error err)

/-- A backup written by one binding is read by either as the structures it was written from, with
any of the shares that are enough, unless its scheme is not declared. -/
theorem backup_exchanged (each : cb.SharesEach) {ctx : Option MaanyMpcCtx}
    {kp : Option (MaanyMpcKp Point Paillier)} {threshold : UInt32} {shareCount : Nat}
    {label : Option Buf} {heap : Heap} {malloc : Nat → Bool} {out : BackupOutputs shareCount}
    {cipher : MaanyMpcBackupCiphertext} {shares : Vector Buf shareCount} {chosen : List Buf}
    {napi : NapiObjects} {jsi : JsiObjects} (node : napi.Documented) (rn : jsi.Documented)
    (accepted : ¬ BackupRefused cb gcm ctx kp threshold shareCount label heap)
    (created : maanyMpcBackupCreate cb gcm ctx kp threshold shareCount label heap malloc out =
      (.ok, ⟨some cipher, some shares⟩))
    (drawn : chosen ⊆ shares.toList) (enough : cipher.threshold.toNat ≤ chosen.length) :
    cipher.scheme.Declared ∧ Exchanged napi jsi cipher chosen ∨
      ¬ cipher.scheme.Declared ∧ Lost napi jsi cipher chosen := by
  have written := written_of_backupCreate each accepted created
  by_cases declared : cipher.scheme.Declared
  · exact .inl ⟨declared, JsBackupRestore.read_written node written declared drawn enough,
      BackupRestore.read_written rn written declared drawn enough⟩
  · refine .inr ⟨declared, ?_, ?_⟩
    · refine (JsBackupRestore.read_undefined_iff node _).mpr ⟨_, rfl, .inl fun known => ?_⟩
      exact scheme_unknown declared known.2.2
    · obtain ⟨err, threw⟩ := BackupRestore.ciphertext_undeclared rn written declared
      exact ⟨err, BackupRestore.bind_error threw⟩

/-- Two shares of three. -/
theorem backup_exchanged_two_of_three : ∃ cipher first second third,
    maanyMpcBackupCreate sampleCb sampleGcm (some ⟨some sampleRng⟩) (some ⟨some sampleKeypair⟩) 2 3
        (some (.bytes [1])) ⟨true, none⟩ (fun _ => true) emptyOutputs =
      (.ok, ⟨some cipher, some #v[first, second, third]⟩) ∧
    Exchanged sampleNapiObjects sampleJsiObjects cipher [third, first] := by
  obtain ⟨cipher, first, second, third, created, scheme, threshold⟩ :
      ∃ cipher first second third,
        maanyMpcBackupCreate sampleCb sampleGcm (some ⟨some sampleRng⟩)
            (some ⟨some sampleKeypair⟩) 2 3 (some (.bytes [1])) ⟨true, none⟩ (fun _ => true)
            emptyOutputs =
          (.ok, ⟨some cipher, some #v[first, second, third]⟩) ∧
        cipher.scheme = .ecdsa2p ∧ cipher.threshold = 2 :=
    ⟨_, _, _, _, rfl, rfl, rfl⟩
  refine ⟨cipher, first, second, third, created, ?_⟩
  have accepted : ¬ BackupRefused sampleCb sampleGcm (some ⟨some sampleRng⟩)
      (some ⟨some sampleKeypair⟩) 2 3 (some (.bytes [1])) ⟨true, none⟩ := by
    rintro (null | null | ⟨_, full⟩ | ⟨_, _, _, held, bridge, threw⟩)
    · cases null
    · cases null
    · cases full
    · cases held
      cases bridge
      cases threw
  have drawn : [third, first] ⊆ #v[first, second, third].toList := by simp
  have exchanged := backup_exchanged sampleCb_sharesEach sampleNapiObjects_documented
    sampleJsiObjects_documented accepted created drawn (by rw [threshold]; exact le_rfl)
  rcases exchanged with ⟨_, exchanged⟩ | ⟨undeclared, _⟩
  · exact exchanged
  · exact absurd (.inl scheme) undeclared

end MaanyMpc
