import MaanyMpc.Backup.RoundTrip
import MaanyMpc.Session.Outcome
import Mathlib.Logic.Equiv.Nat

/-! # Keypairs that were handed out

`Keypair` carries the relation between the role, the kind and the curves in its fields.
`KeypairImpl` here is the class as it is declared, which anything can be put into. Every
keypair that the four functions of the bridge hand out is a `Keypair`, and what `ExportKey`
writes of it `ImportKey` reads back. -/

namespace MaanyMpc

variable {Point Paillier Drbg : Type}

structure KeypairImpl (Point Paillier : Type) where
  kind : ShareKind
  scheme : Scheme
  curve : Curve
  keyId : KeyId
  key : Key Point Paillier

/-- The role is the party of the kind and the curve of the key is the stored one. -/
def KeypairImpl.WellFormed (kp : KeypairImpl Point Paillier) : Prop :=
  toParty kp.kind = .ok kp.key.role ∧ fromCbCurve kp.key.curve = .ok kp.curve

def Keypair.toImpl (kp : Keypair Point Paillier) : KeypairImpl Point Paillier where
  kind := kp.kind
  scheme := kp.scheme
  curve := kp.curve
  keyId := kp.keyId
  key := kp.key

theorem Keypair.toImpl_wellFormed (kp : Keypair Point Paillier) : kp.toImpl.WellFormed :=
  ⟨kp.role_eq, kp.curve_eq⟩

theorem KeypairImpl.WellFormed.exists_keypair {kp : KeypairImpl Point Paillier}
    (h : kp.WellFormed) : ∃ keypair : Keypair Point Paillier, keypair.toImpl = kp :=
  ⟨{ kind := kp.kind, scheme := kp.scheme, curve := kp.curve, keyId := kp.keyId, key := kp.key,
     role_eq := h.1, curve_eq := h.2 }, rfl⟩

/-! ## The sizing pass -/

/-- `converter_t calc(true)` on the field types of a blob: what each adds to the offset. -/
structure Sizes (Point Paillier : Type) where
  u32 : UInt32 → ℕ
  keyId : KeyId → ℕ
  curve : EcCurve → ℕ
  point : Point → ℕ
  bn : Int → ℕ
  paillier : Paillier → ℕ

/-- The converter writes every field, in as many bytes as it has counted for it. -/
structure Converter.Sized (conv : Converter Point Paillier) (sizes : Sizes Point Paillier) :
    Prop where
  u32 : conv.u32.Sized sizes.u32
  keyId : conv.keyId.Sized sizes.keyId
  curve : conv.curve.Sized sizes.curve
  point : conv.point.Sized sizes.point
  bn : conv.bn.Sized sizes.bn
  paillier : conv.paillier.Sized sizes.paillier

/-- `KeyBlob::convert` with `calc`. -/
def KeyBlob.calc (sizes : Sizes Point Paillier) (blob : KeyBlob Point Paillier) : ℕ :=
  sizes.u32 blob.magic + (sizes.u32 blob.version + (sizes.u32 blob.scheme +
    (sizes.u32 blob.kind + (sizes.keyId blob.keyId + (sizes.curve blob.curve +
      (sizes.point blob.Q + (sizes.bn blob.xShare + (sizes.bn blob.cKey +
        sizes.paillier blob.paillier))))))))

theorem KeyBlob.convert_sized {conv : Converter Point Paillier} {sizes : Sizes Point Paillier}
    (h : conv.Sized sizes) : (KeyBlob.convert conv).Sized (KeyBlob.calc sizes) :=
  (h.u32.seq <| h.u32.seq <| h.u32.seq <| h.u32.seq <| h.keyId.seq <| h.curve.seq <|
    h.point.seq <| h.bn.seq <| h.bn.seq h.paillier).map KeyBlob.fields

/-! ## Export and import of the declared class -/

def KeypairImpl.blob (kp : KeypairImpl Point Paillier) : KeyBlob Point Paillier where
  magic := kKeyBlobMagic
  version := kKeyBlobVersion
  scheme := kp.scheme.toUInt32
  kind := kp.kind.toUInt32
  keyId := kp.keyId
  curve := kp.key.curve
  Q := kp.key.Q
  xShare := kp.key.xShare
  cKey := kp.key.cKey
  paillier := kp.key.paillier

/-- `ExportKey`. The writer starts at the front of a buffer of the counted size and does not
look for its end. -/
def KeypairImpl.exportKey (conv : Converter Point Paillier) (sizes : Sizes Point Paillier)
    (kp : KeypairImpl Point Paillier) : Except Error Bytes :=
  let out : Bytes := List.replicate (KeyBlob.calc sizes kp.blob) 0
  match (KeyBlob.convert conv).write kp.blob with
  | none => .error ⟨.general, "failed to serialize key"⟩
  | some written => .ok (written ++ out.drop written.length)

/-- `ImportKey`. -/
def KeypairImpl.importKey (conv : Converter Point Paillier) (blob : Bytes) :
    Except Error (KeypairImpl Point Paillier) :=
  match (KeyBlob.convert conv).read blob with
  | none => .error ⟨.invalidArgument, "invalid key blob"⟩
  | some (stored, _) => do
    if stored.magic ≠ kKeyBlobMagic ∨ stored.version ≠ kKeyBlobVersion then
      throw ⟨.invalidArgument, "unsupported key blob version"⟩
    let curve ← fromCbCurve stored.curve
    let role ← toParty (.ofUInt32 stored.kind)
    return { kind := .ofUInt32 stored.kind
             scheme := .ofUInt32 stored.scheme
             curve
             keyId := stored.keyId
             key := { role, curve := stored.curve, Q := stored.Q, xShare := stored.xShare,
                      cKey := stored.cKey, paillier := stored.paillier } }

theorem KeypairImpl.importKey_eq (conv : Converter Point Paillier) (blob : Bytes) :
    KeypairImpl.importKey conv blob = (MaanyMpc.importKey conv blob).map Keypair.toImpl := by
  unfold KeypairImpl.importKey MaanyMpc.importKey
  cases (KeyBlob.convert conv).read blob with
  | none => rfl
  | some result =>
      obtain ⟨stored, rest⟩ := result
      by_cases version : stored.magic ≠ kKeyBlobMagic ∨ stored.version ≠ kKeyBlobVersion
      · simp only [if_pos version]
        rfl
      · simp only [if_neg version]
        split
        next err unsupported =>
          simp only [unsupported]
          rfl
        next curve supported =>
          split
          next err unknown =>
            simp only [supported, unknown]
            rfl
          next role known =>
            simp only [supported, known]
            rfl

theorem KeypairImpl.wellFormed_of_importKey {conv : Converter Point Paillier} {blob : Bytes}
    {kp : KeypairImpl Point Paillier} (imported : KeypairImpl.importKey conv blob = .ok kp) :
    kp.WellFormed := by
  rw [KeypairImpl.importKey_eq] at imported
  cases typed : MaanyMpc.importKey conv blob with
  | error err =>
      rw [typed] at imported
      cases imported
  | ok keypair =>
      rw [typed] at imported
      obtain rfl : keypair.toImpl = kp := Except.ok.inj imported
      exact keypair.toImpl_wellFormed

/-- With a converter that sizes as it writes, the buffer is filled exactly. -/
theorem KeypairImpl.exportKey_eq_ok {conv : Converter Point Paillier}
    {sizes : Sizes Point Paillier} (h : conv.Sized sizes) (kp : KeypairImpl Point Paillier) :
    ∃ bytes, (KeyBlob.convert conv).write kp.blob = some bytes ∧
      kp.exportKey conv sizes = .ok bytes ∧ bytes.length = KeyBlob.calc sizes kp.blob := by
  obtain ⟨bytes, written, length⟩ := KeyBlob.convert_sized h kp.blob
  refine ⟨bytes, written, ?_, length⟩
  have filled : (List.replicate (KeyBlob.calc sizes kp.blob) (0 : UInt8)).drop bytes.length =
      [] := by
    rw [List.drop_eq_nil_iff, List.length_replicate, length]
  rw [KeypairImpl.exportKey, written]
  simp only [filled, List.append_nil]

/-- Both exports are one function on the keypairs of the bridge. -/
theorem Keypair.exportKey_toImpl {conv : Converter Point Paillier}
    {sizes : Sizes Point Paillier} (h : conv.Sized sizes) (kp : Keypair Point Paillier) :
    kp.toImpl.exportKey conv sizes = MaanyMpc.exportKey conv kp := by
  obtain ⟨bytes, written, exported, _⟩ := KeypairImpl.exportKey_eq_ok h kp.toImpl
  have same : (KeyBlob.convert conv).write kp.blob = some bytes := written
  rw [exported, MaanyMpc.exportKey, same]

/-! ## The four functions -/

/-- `RestoreBackup` up to its call of `ImportKey`. -/
def openBackup (cb : CbMpc Point Paillier Drbg) (gcm : AesGcm) (ciphertext : BackupCiphertext)
    (shares : List Bytes) : Except Error Bytes := do
  let points ← restorePoints cb ciphertext shares
  let secret := cb.lagrangeInterpolate 0 (points.map Prod.snd) (points.map Prod.fst)
    secp256k1Order
  if ciphertext.payload.length < kBackupNonceSize + kBackupTagSize then
    throw ⟨.invalidArgument, "backup ciphertext too short"⟩
  aesGcmDecrypt gcm (cb.toBin scalarSize secret).toList ciphertext.label
    (ciphertext.payload.take kBackupNonceSize)
    ((ciphertext.payload.drop kBackupNonceSize).take kBackupTagSize)
    (ciphertext.payload.drop (kBackupNonceSize + kBackupTagSize))

theorem restoreBackup_eq (cb : CbMpc Point Paillier Drbg) (gcm : AesGcm)
    (ciphertext : BackupCiphertext) (shares : List Bytes) :
    restoreBackup cb gcm ciphertext shares =
      openBackup cb gcm ciphertext shares >>= MaanyMpc.importKey cb.converter := by
  unfold restoreBackup openBackup
  cases restorePoints cb ciphertext shares with
  | error err => rfl
  | ok points =>
      by_cases short : ciphertext.payload.length < kBackupNonceSize + kBackupTagSize
      · simp only [if_pos short]
        rfl
      · simp only [if_neg short]
        rfl

/-- What DKG, refresh, `ImportKey` and `RestoreBackup` put into a `KeypairImpl`, from one
another's results and from any bytes. The key of the two protocols is any key with the role
and the curve they were given. -/
inductive Reached (cb : CbMpc Point Paillier Drbg) (gcm : AesGcm) :
    KeypairImpl Point Paillier → Prop where
  | dkg {opts : DkgOptions} {d : DkgSessionImpl} (created : DkgSessionImpl.create opts = .ok d)
      (key : KeyFor Point Paillier d.party d.curve) :
      Reached cb gcm ⟨opts.kind, opts.scheme, opts.curve, opts.keyId, key.val⟩
  | refresh {kp : KeypairImpl Point Paillier} {party : Party} {curve : Curve}
      (reached : Reached cb gcm kp) (party_eq : toParty kp.kind = .ok party)
      (scheme_eq : kp.scheme = .ecdsa2p) (curve_eq : fromCbCurve kp.key.curve = .ok curve)
      (key : KeyFor Point Paillier party kp.key.curve) :
      Reached cb gcm ⟨kp.kind, kp.scheme, curve, kp.keyId, key.val⟩
  | importKey {blob : Bytes} {kp : KeypairImpl Point Paillier}
      (imported : KeypairImpl.importKey cb.converter blob = .ok kp) : Reached cb gcm kp
  | restoreBackup {ciphertext : BackupCiphertext} {shares : List Bytes} {plaintext : Bytes}
      {kp : KeypairImpl Point Paillier}
      (opened : openBackup cb gcm ciphertext shares = .ok plaintext)
      (imported : KeypairImpl.importKey cb.converter plaintext = .ok kp) : Reached cb gcm kp

theorem DkgSessionImpl.create_eq_ok {opts : DkgOptions} {d : DkgSessionImpl}
    (created : DkgSessionImpl.create opts = .ok d) : d.opts = opts := by
  unfold DkgSessionImpl.create at created
  split at created
  · cases created
  · split at created
    · cases created
    · split at created
      · cases created
        rfl
      · cases created

theorem Reached.wellFormed {cb : CbMpc Point Paillier Drbg} {gcm : AesGcm}
    {kp : KeypairImpl Point Paillier} (h : Reached cb gcm kp) : kp.WellFormed := by
  cases h with
  | @dkg opts d created key =>
      obtain rfl := DkgSessionImpl.create_eq_ok created
      obtain ⟨role, curve⟩ := key.property
      refine ⟨?_, ?_⟩
      · exact d.party_eq.trans (congrArg Except.ok role.symm)
      · rw [curve]
        exact fromCbCurve_toCbCurve d.curve_eq
  | refresh reached party_eq scheme_eq curve_eq key =>
      obtain ⟨role, curve⟩ := key.property
      refine ⟨?_, ?_⟩
      · exact party_eq.trans (congrArg Except.ok role.symm)
      · rw [curve]
        exact curve_eq
  | importKey imported => exact KeypairImpl.wellFormed_of_importKey imported
  | restoreBackup opened imported => exact KeypairImpl.wellFormed_of_importKey imported

/-- A reached keypair is well formed, and survives export and import in a buffer of the size
that was counted for it. -/
theorem reached_keypair_survives {cb : CbMpc Point Paillier Drbg} {gcm : AesGcm}
    {sizes : Sizes Point Paillier} (hconv : cb.converter.Lawful)
    (hsizes : cb.converter.Sized sizes) {kp : KeypairImpl Point Paillier}
    (reached : Reached cb gcm kp) :
    toParty kp.kind = .ok kp.key.role ∧ fromCbCurve kp.key.curve = .ok kp.curve ∧
      ∃ bytes, kp.exportKey cb.converter sizes = .ok bytes ∧
        bytes.length = KeyBlob.calc sizes kp.blob ∧
        KeypairImpl.importKey cb.converter bytes = .ok kp := by
  have wellFormed := reached.wellFormed
  obtain ⟨bytes, _, exported, length⟩ := KeypairImpl.exportKey_eq_ok hsizes kp
  refine ⟨wellFormed.1, wellFormed.2, bytes, exported, length, ?_⟩
  obtain ⟨keypair, rfl⟩ := wellFormed.exists_keypair
  rw [keypair.exportKey_toImpl hsizes] at exported
  rw [KeypairImpl.importKey_eq, importKey_exportKey hconv exported]
  rfl

/-! ## Everything the bridge returns is reached -/

theorem Reached.of_importKey {cb : CbMpc Point Paillier Drbg} {gcm : AesGcm} {blob : Bytes}
    {kp : Keypair Point Paillier} (imported : MaanyMpc.importKey cb.converter blob = .ok kp) :
    Reached cb gcm kp.toImpl := by
  have same : KeypairImpl.importKey cb.converter blob = .ok kp.toImpl := by
    rw [KeypairImpl.importKey_eq, imported]
    rfl
  exact .importKey same

theorem Reached.of_restoreBackup {cb : CbMpc Point Paillier Drbg} {gcm : AesGcm}
    {ciphertext : BackupCiphertext} {shares : List Bytes} {kp : Keypair Point Paillier}
    (restored : MaanyMpc.restoreBackup cb gcm ciphertext shares = .ok kp) :
    Reached cb gcm kp.toImpl := by
  rw [restoreBackup_eq, Fallible.bind_eq_ok] at restored
  obtain ⟨plaintext, opened, imported⟩ := restored
  refine .restoreBackup opened ?_
  rw [KeypairImpl.importKey_eq, imported]
  rfl

/-- What a Finalize returns in a run is what the session's own `Finalize` makes of a key. -/
theorem run_finalizeReturned {α φ β : Type} {impl : SessionImpl α φ β}
    {taken : List (State α φ × Action φ)} {es : List (Event β)} {s : State α φ}
    (run : impl.machine.Run taken es s) {value : β} (mem : .finalizeReturned value ∈ es) :
    ∃ fmt ready, (impl.finalize fmt ready).1 = .ok value := by
  have meets : Transition.Machine.Meets (fun _ _ => True) taken := fun _ _ => trivial
  refine run.guarded_events (fun _ _ => True) (fun _ => True)
    (fun e => ∀ value, e = .finalizeReturned value →
      ∃ fmt ready, (impl.finalize fmt ready).1 = .ok value) trivial ?_ meets _ mem value rfl
  intro s a s' emitted _ _ hstep
  refine ⟨trivial, ?_⟩
  rintro _ he value rfl
  have step := (step_iff ..).mp hstep
  cases step with
  | @finalized fmt returned ready pc result =>
      obtain rfl : value = returned := by simpa using he
      exact ⟨fmt, s.ready, by rw [result]⟩
  | _ => simp at he

theorem Reached.of_dkg_run {cb : CbMpc Point Paillier Drbg} {gcm : AesGcm}
    {ecdsa : Ecdsa2pc Point Paillier} {opts : DkgOptions} {d : DkgSessionImpl}
    (created : DkgSessionImpl.create opts = .ok d) {taken es s}
    (run : (d.session ecdsa).machine.Run taken es s) {kp : Keypair Point Paillier}
    (mem : .finalizeReturned kp ∈ es) : Reached cb gcm kp.toImpl := by
  obtain ⟨_, ready, result⟩ := run_finalizeReturned run mem
  obtain rfl := DkgSessionImpl.create_eq_ok created
  cases ready with
  | none => cases result
  | some key =>
      obtain rfl := Except.ok.inj result
      exact .dkg created key

theorem Reached.of_refresh_run {cb : CbMpc Point Paillier Drbg} {gcm : AesGcm}
    {ecdsa : Ecdsa2pc Point Paillier} {r : RefreshSessionImpl Point Paillier}
    (reached : Reached cb gcm r.keypair.toImpl) {taken es s}
    (run : (r.session ecdsa).machine.Run taken es s) {kp : Keypair Point Paillier}
    (mem : .finalizeReturned kp ∈ es) : Reached cb gcm kp.toImpl := by
  obtain ⟨_, ready, result⟩ := run_finalizeReturned run mem
  cases ready with
  | none => cases result
  | some key =>
      simp only [RefreshSessionImpl.session] at result
      split at result
      next err unsupported => cases result
      next curve supported =>
        obtain rfl := Except.ok.inj result
        exact .refresh reached r.party_eq r.scheme_eq supported key

/-! ## A keypair that was refreshed -/

def EcCurve.code : EcCurve ≃ ℕ where
  toFun
    | .secp256k1 => 0
    | .other code => code + 1
  invFun
    | 0 => .secp256k1
    | code + 1 => .other code
  left_inv curve := by cases curve with | secp256k1 | other code => rfl
  right_inv code := by cases code with | zero | succ code => rfl

/-- Numbers of any size. -/
def varintConverter : Converter Unit Unit where
  u32 := sampleConverter.u32
  keyId := sampleConverter.keyId
  curve := Codec.varint.map EcCurve.code.symm
  point := Codec.unit
  bn := Codec.varint.map Equiv.intEquivNat.symm
  paillier := Codec.unit

def varintSizes : Sizes Unit Unit where
  u32 _ := 4
  keyId _ := 32
  curve curve := (Codec.writeVarint (EcCurve.code curve)).length
  point _ := 0
  bn value := (Codec.writeVarint (Equiv.intEquivNat value)).length
  paillier _ := 0

theorem varintConverter_lawful : varintConverter.Lawful where
  u32 := sampleConverter_lawful.u32
  u32_length := sampleConverter_lawful.u32_length
  keyId := sampleConverter_lawful.keyId
  curve := Codec.varint_roundTrips.map _
  point := Codec.unit_roundTrips
  bn := Codec.varint_roundTrips.map _
  paillier := Codec.unit_roundTrips

theorem varintConverter_sized : varintConverter.Sized varintSizes where
  u32 := (Codec.fixed_sized 4).via fun bytes => UInt32.ofNat (BigEndian.decode bytes.toList)
  keyId := (Codec.fixed_sized 32).via KeyId.mk
  curve := Codec.varint_sized.map _
  point := Codec.unit_sized
  bn := Codec.varint_sized.map _
  paillier := Codec.unit_sized

def refreshedKeypair : KeypairImpl Unit Unit where
  kind := .device
  scheme := .ecdsa2p
  curve := .secp256k1
  keyId := ⟨Vector.replicate 32 0⟩
  key := ⟨.p1, .secp256k1, (), 8, 0, ()⟩

theorem reached_keypair_survives_refreshed :
    ∃ bytes, refreshedKeypair.exportKey varintConverter varintSizes = .ok bytes ∧
      bytes.length = KeyBlob.calc varintSizes refreshedKeypair.blob ∧
      KeypairImpl.importKey varintConverter bytes = .ok refreshedKeypair := by
  have created : DkgSessionImpl.create deviceDkg.opts = .ok deviceDkg := rfl
  have generated : Reached { sampleCb with converter := varintConverter } sampleGcm
      ⟨.device, .ecdsa2p, .secp256k1, ⟨Vector.replicate 32 0⟩, ⟨.p1, .secp256k1, (), 7, 0, ()⟩⟩ :=
    .dkg created ⟨⟨.p1, .secp256k1, (), 7, 0, ()⟩, rfl, rfl⟩
  have refreshed : Reached { sampleCb with converter := varintConverter } sampleGcm
      refreshedKeypair :=
    .refresh generated rfl rfl rfl ⟨⟨.p1, .secp256k1, (), 8, 0, ()⟩, rfl, rfl⟩
  exact (reached_keypair_survives varintConverter_lawful varintConverter_sized refreshed).2.2

end MaanyMpc
