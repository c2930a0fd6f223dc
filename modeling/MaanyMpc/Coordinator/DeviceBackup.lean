import MaanyMpc.Bindings.BackupExchange
import MaanyMpc.Coordinator.Dkg

/-! # The backup of a key generation

The end of `runDkg` in coordinator-rn. The keypairs that have been finalized are exported and
saved, and then the device keypair is backed up. -/

namespace MaanyMpc

variable {Point Paillier Drbg : Type}

/-! ## The host object -/

/-- What a call of the host object throws, or a storage rejects with. -/
inductive HostError where
  | argument (err : BindingError)
  | status (err : MaanyMpcError)
  | storage (reason : String)

/-- What `maany_mpc_backup_create` depends on beside its arguments. -/
structure BackupMachine where
  rng : Rng
  heap : Heap
  malloc : ℕ → Bool

/-- The zeros of a `maany_mpc_backup_ciphertext_t`. -/
def zeroCiphertext : MaanyMpcBackupCiphertext where
  kind := .device
  scheme := .ecdsa2p
  curve := .secp256k1
  keyId := ⟨Vector.replicate 32 0⟩
  threshold := 0
  shareCount := 0
  label := .null 0
  ciphertext := .null 0

/-- The structures that the host object passes. -/
def zeroOutputs (shareCount : ℕ) : BackupOutputs shareCount where
  ciphertext := some zeroCiphertext
  shares := some (Vector.replicate shareCount (.null 0))

section HostObject

variable (jsi : Jsi) (cb : CbMpc Point Paillier Drbg) (gcm : AesGcm) (machine : BackupMachine)
  (kp : Keypair Point Paillier)

/-- `maany_mpc_backup_create` as the host object calls it, with its handles there. -/
def hostCreates (call : BackupCall) : MaanyMpcError × BackupOutputs call.shareCount :=
  maanyMpcBackupCreate cb gcm (some ⟨some machine.rng⟩) (some ⟨some kp⟩) call.threshold
    call.shareCount (call.label.map .bytes) machine.heap machine.malloc
    (zeroOutputs call.shareCount)

def hostBackupCreate (options : Option JsArgument) : Except HostError JsBackup :=
  match BackupCreate.run jsi options with
  | .error err => .error (.argument err)
  | .ok call =>
    match hostCreates cb gcm machine kp call with
    | (.ok, ⟨some cipher, some shares⟩) => .ok (writeBackupObjects cipher shares.toList)
    | (err, _) => .error (.status err)

/-! ## coordinator-rn -/

namespace CoordinatorRn

/-- The numbers have no fraction. -/
structure DeviceBackupOptions where
  enabled : Option Bool
  threshold : Option ℤ
  shareCount : Option ℤ
  label : Option Bytes

/-- The object that `backupCreate` is given. -/
def backupOptions (options : Option DeviceBackupOptions) : JsProperties
  | "threshold" => (options.bind DeviceBackupOptions.threshold).map .number
  | "shareCount" => (options.bind DeviceBackupOptions.shareCount).map .number
  | "label" => (options.bind DeviceBackupOptions.label).map .uint8Array
  | _ => none

def maybeCreateBackup (options : Option DeviceBackupOptions) :
    Except HostError (Option JsBackup) :=
  if options.bind DeviceBackupOptions.enabled = some false then .ok none
  else
    (hostBackupCreate jsi cb gcm machine kp (some (.object (backupOptions options)))).map some

/-- What becomes of the promise of `storage.save`. -/
abbrev SaveOutcome := ShareRecord → Except String Unit

/-- The records that are saved, and what `kpExport` has thrown or `save` has rejected with after
them. -/
def saveShares {Storage : Type} (opts : DkgOptions Storage) (save : SaveOutcome)
    (server : Keypair Point Paillier) : List ShareRecord × Except HostError Unit :=
  if opts.storage.isSome then
    match exportKey cb.converter kp with
    | .error err => ([], .error (.status (mapBridgeErrorCode err.code)))
    | .ok deviceBlob =>
      let deviceRecord : ShareRecord := ⟨toHex deviceBlob, deviceBlob⟩
      match save deviceRecord with
      | .error reason => ([], .error (.storage reason))
      | .ok () =>
        if opts.mode = some .deviceOnly then ([deviceRecord], .ok ())
        else
          match exportKey cb.converter server with
          | .error err => ([deviceRecord], .error (.status (mapBridgeErrorCode err.code)))
          | .ok serverBlob =>
            let serverRecord : ShareRecord := ⟨toHex deviceBlob ++ ":server", serverBlob⟩
            match save serverRecord with
            | .error reason => ([deviceRecord], .error (.storage reason))
            | .ok () => ([deviceRecord, serverRecord], .ok ())
  else ([], .ok ())

/-- What is saved, and the backup that `runDkg` resolves with or what it rejects with. -/
def finishDkg {Storage : Type} (opts : DkgOptions Storage) (save : SaveOutcome)
    (server : Keypair Point Paillier) (backup : Option DeviceBackupOptions) :
    List ShareRecord × Except HostError (Option JsBackup) :=
  match saveShares cb kp opts save server with
  | (saved, .error err) => (saved, .error err)
  | (saved, .ok ()) => (saved, maybeCreateBackup jsi cb gcm machine kp backup)

/-- The numbers are such that an `int` holds them. -/
def DeviceBackupOptions.InRange (options : DeviceBackupOptions) : Prop :=
  ∀ n, options.threshold = some n ∨ options.shareCount = some n → 1 ≤ n ∧ n < 2 ^ 31

def backupThreshold (options : Option DeviceBackupOptions) : ℤ :=
  (options.bind DeviceBackupOptions.threshold).getD 2

def backupCount (options : Option DeviceBackupOptions) : ℤ :=
  (options.bind DeviceBackupOptions.shareCount).getD 3

/-- The call that the options come to, if there are enough shares. -/
def backupCall (options : Option DeviceBackupOptions) : BackupCall :=
  ⟨toUint32 (backupThreshold options), (backupCount options).toNat,
    labelPointer ((options.bind DeviceBackupOptions.label).getD [])⟩

end CoordinatorRn

end HostObject

/-! ## What is asked for -/

namespace CoordinatorRn

section Options

variable {options : Option DeviceBackupOptions}
  (range : ∀ given ∈ options, DeviceBackupOptions.InRange given)

theorem wantedThreshold_backupOptions :
    wantedThreshold (backupOptions options) = backupThreshold options := by
  rw [wantedThreshold, backupThreshold, givenNumber, backupOptions]
  cases options.bind DeviceBackupOptions.threshold <;> rfl

theorem wantedCount_backupOptions :
    wantedCount (backupOptions options) = backupCount options := by
  rw [wantedCount, backupCount, givenNumber, givenNumber, backupOptions]
  cases options.bind DeviceBackupOptions.shareCount <;> rfl

theorem wantedLabel_backupOptions :
    wantedLabel (backupOptions options) =
      (options.bind DeviceBackupOptions.label).getD [] := by
  rw [wantedLabel, backupOptions]
  cases options.bind DeviceBackupOptions.label <;> rfl

theorem backupOptions_number {field : Option ℤ} {name : String}
    (property : backupOptions options name = field.map .number)
    (range : ∀ n, field = some n → 1 ≤ n ∧ n < 2 ^ 31) :
    Absent (backupOptions options name) ∨
      ∃ n, backupOptions options name = some (.number n) ∧ 1 ≤ n ∧ n < 2 ^ 31 := by
  cases field with
  | none => exact .inl (.inl property)
  | some n => exact .inr ⟨n, property, range n rfl⟩

include range

theorem backupOptions_proper : Proper (backupOptions options) where
  number name field := by
    have given (n : ℤ) (h : options.bind DeviceBackupOptions.threshold = some n ∨
        options.bind DeviceBackupOptions.shareCount = some n) : 1 ≤ n ∧ n < 2 ^ 31 := by
      cases options with
      | none => simp at h
      | some options => exact range options rfl n h
    simp only [List.mem_cons, List.not_mem_nil, or_false] at field
    obtain rfl | rfl | rfl := field
    · exact backupOptions_number rfl fun n h => given n (.inl h)
    · exact backupOptions_number rfl fun n h => given n (.inr h)
    · exact .inl (.inl rfl)
  label := by
    cases label : options.bind DeviceBackupOptions.label with
    | none => exact .inl (.inl (by simp [backupOptions, label]))
    | some bytes => exact .inr ⟨bytes, .inl (by simp [backupOptions, label])⟩

/-- The host object finds too few shares, or makes the call. -/
theorem run_backupOptions {jsi : Jsi} (native : jsi.Documented) :
    BackupCreate.run jsi (some (.object (backupOptions options))) =
      if backupCount options < backupThreshold options then
        .error (.typeError "shareCount must be >= threshold")
      else .ok (backupCall options) := by
  have proper := backupOptions_proper range
  have few := proper.few_iff
  rw [BackupCreate.run_eq native proper, BackupCreate.call, backupCall,
    wantedLabel_backupOptions]
  rw [wantedThreshold_backupOptions, wantedCount_backupOptions] at few ⊢
  simp only [few]

end Options

end CoordinatorRn

/-! ## What is written -/

variable {cb : CbMpc Point Paillier Drbg} {gcm : AesGcm} {machine : BackupMachine}
  {kp : Keypair Point Paillier} {call : BackupCall}

/-- No exception says that all is well. -/
structure Coded (gcm : AesGcm) (heap : Heap) : Prop where
  encrypt : ∀ key nonce aad plaintext err,
    gcm.encrypt key nonce aad plaintext = .error err → err.code ≠ .ok
  heap : ∀ exception, heap.createBackup = some exception → translateException exception ≠ .ok

def sampleMachine : BackupMachine where
  rng := sampleRng
  heap := ⟨true, none⟩
  malloc _ := true

theorem sampleMachine_coded : Coded sampleGcm sampleMachine.heap where
  encrypt _ _ _ _ _ threw := by cases threw
  heap _ thrown := by cases thrown

theorem randomBytes_code {rng : Rng} {n len : ℕ} {err : Error}
    (threw : randomBytes rng n len = .error err) : err.code ≠ .ok := by
  unfold randomBytes at threw
  split at threw
  · cases threw
  · split at threw <;> split_ifs at threw <;> cases threw <;> decide

theorem ensure_code {condition : Bool} {code : ErrorCode} {message : String} {err : Error}
    (bad : code ≠ .ok) (threw : ensure condition code message = .error err) : err.code ≠ .ok := by
  unfold ensure at threw
  split_ifs at threw
  cases threw
  exact bad

theorem updateAad_code {aad : Bytes} {err : Error} (threw : updateAad aad = .error err) :
    err.code ≠ .ok := by
  obtain size | ⟨_, _, result⟩ := Fallible.bind_eq_error.mp threw
  · exact ensure_code (by decide) size
  · cases result

theorem aesGcmEncrypt_code (coded : Coded gcm machine.heap)
    {key nonce aad plaintext : Bytes} {err : Error}
    (threw : aesGcmEncrypt gcm key nonce aad plaintext = .error err) : err.code ≠ .ok := by
  simp only [aesGcmEncrypt, Fallible.bind_eq_error] at threw
  obtain size | ⟨_, _, size | ⟨_, _, aad | ⟨_, _, threw | ⟨_, _, result⟩⟩⟩⟩ := threw
  · exact ensure_code (by decide) size
  · exact ensure_code (by decide) size
  · exact updateAad_code aad
  · exact coded.encrypt _ _ _ _ _ threw
  · cases result

theorem createBackup_code (coded : Coded gcm machine.heap) {rng : Rng} {threshold : UInt32}
    {shareCount : ℕ} {label : Bytes} {err : Error}
    (threw : createBackup cb gcm rng kp threshold shareCount label = .error err) :
    err.code ≠ .ok := by
  simp only [createBackup, Fallible.bind_eq_error] at threw
  obtain checked | ⟨_, _, exported | ⟨_, _, seeded | ⟨_, _, drawn | ⟨_, _, threw |
    ⟨_, _, result⟩⟩⟩⟩⟩ := threw
  · unfold checkBackupArguments at checked
    split_ifs at checked <;> cases checked <;> decide
  · unfold exportKey at exported
    split at exported <;> cases exported
    decide
  · exact randomBytes_code seeded
  · exact randomBytes_code drawn
  · exact aesGcmEncrypt_code coded threw
  · cases result

theorem mapBridgeErrorCode_ne_ok {code : ErrorCode} (h : code ≠ .ok) :
    mapBridgeErrorCode code ≠ .ok := by
  cases code with
  | ok => exact absurd rfl h
  | _ => decide

theorem bridgeCreateBackup_status (coded : Coded gcm machine.heap) {rng : Rng} {threshold : UInt32}
    {shareCount : ℕ} {label : Bytes} {exception : BridgeException}
    (threw : bridgeCreateBackup cb gcm rng kp threshold shareCount label machine.heap =
      .error exception) : translateException exception ≠ .ok := by
  unfold bridgeCreateBackup at threw
  cases thrown : machine.heap.createBackup with
  | some first =>
      simp only [thrown, Except.error.injEq] at threw
      exact threw ▸ coded.heap _ thrown
  | none =>
      cases created : createBackup cb gcm rng kp threshold shareCount label with
      | error err =>
          simp only [thrown, created, Except.mapError, Except.error.injEq] at threw
          exact threw ▸ mapBridgeErrorCode_ne_ok (createBackup_code coded created)
      | ok result => simp [thrown, created, Except.mapError] at threw

/-- The call is refused. -/
def HostRefused (cb : CbMpc Point Paillier Drbg) (gcm : AesGcm) (machine : BackupMachine)
    (kp : Keypair Point Paillier) (call : BackupCall) : Prop :=
  BackupRefused cb gcm (some ⟨some machine.rng⟩) (some ⟨some kp⟩) call.threshold call.shareCount
    (call.label.map .bytes) machine.heap

/-- A call that is refused is answered with an error. Any other call writes what `CreateBackup`
has returned. -/
theorem hostCreates_cases (cb : CbMpc Point Paillier Drbg) (kp : Keypair Point Paillier)
    (call : BackupCall) (coded : Coded gcm machine.heap) :
    HostRefused cb gcm machine kp call ∧ (hostCreates cb gcm machine kp call).1 ≠ .ok ∨
      ¬ HostRefused cb gcm machine kp call ∧ ∃ artifact dealt ciphertext slots,
        createBackup cb gcm machine.rng kp call.threshold call.shareCount
          (labelOwner (call.label.map .bytes)) = .ok (artifact, dealt) ∧
        hostCreates cb gcm machine kp call =
          ((writeBackup machine.malloc artifact dealt ciphertext slots).1,
            ⟨some (writeBackup machine.malloc artifact dealt ciphertext slots).2.1,
              some (writeBackup machine.malloc artifact dealt ciphertext slots).2.2⟩) := by
  by_cases full : labelOwner (call.label.map .bytes) ≠ [] ∧ machine.heap.copyIn = false
  · refine .inl ⟨.labelThrew full.1 full.2, ?_⟩
    simp [hostCreates, maanyMpcBackupCreate, zeroOutputs, full]
  · cases made : bridgeCreateBackup cb gcm machine.rng kp call.threshold call.shareCount
        (labelOwner (call.label.map .bytes)) machine.heap with
    | error exception =>
        refine .inl ⟨.createThrew _ _ exception rfl rfl made, ?_⟩
        have threw : (hostCreates cb gcm machine kp call).1 = translateException exception := by
          simp only [hostCreates, maanyMpcBackupCreate, zeroOutputs, Option.bind_some, if_neg full,
            made]
        exact threw ▸ bridgeCreateBackup_status coded made
    | ok result =>
        obtain ⟨artifact, dealt⟩ := result
        refine .inr ⟨?_, artifact, dealt, zeroCiphertext,
          Vector.replicate call.shareCount (.null 0), bridgeCreateBackup_eq_ok made, ?_⟩
        · rintro (null | null | ⟨some, empty⟩ | ⟨_, _, _, held, bridge, threw⟩)
          · cases null
          · cases null
          · exact full ⟨some, empty⟩
          · cases held
            cases bridge
            exact Fallible.error_ne_ok (threw.symm.trans made)
        · simp only [hostCreates, maanyMpcBackupCreate, zeroOutputs, Option.bind_some, if_neg full,
            made]

/-- The call succeeds if and only if it is not refused and gets its memory. -/
theorem hostCreates_ok_iff (each : cb.SharesEach) (coded : Coded gcm machine.heap) :
    (hostCreates cb gcm machine kp call).1 = .ok ↔ ¬ HostRefused cb gcm machine kp call ∧
      ∀ i < backupMallocs (call.label.map .bytes) call.shareCount, machine.malloc i = true := by
  obtain ⟨refused, failed⟩ | ⟨accepted, artifact, dealt, ciphertext, slots, created, run⟩ :=
    hostCreates_cases cb kp call coded
  · exact iff_of_false failed fun h => h.1 refused
  · obtain ⟨label, payload, count, filled⟩ := createBackup_outputs each created
    rw [run, writeBackup_status machine.malloc ciphertext slots payload count filled, label,
      and_iff_right accepted]
    rfl

/-- What the host object is left with by a call that succeeds. -/
theorem hostCreates_ok (each : cb.SharesEach) (coded : Coded gcm machine.heap)
    (ok : (hostCreates cb gcm machine kp call).1 = .ok) :
    ∃ cipher shares artifact dealt,
      hostCreates cb gcm machine kp call = (.ok, ⟨some cipher, some shares⟩) ∧
      createBackup cb gcm machine.rng kp call.threshold call.shareCount
        (labelOwner (call.label.map .bytes)) = .ok (artifact, dealt) ∧
      cipher = { artifact with
        label := copyOutBuffer artifact.label, ciphertext := copyOutBuffer artifact.payload } ∧
      shares.toList = dealt.map .bytes ∧ Written cipher shares.toList := by
  obtain ⟨_, failed⟩ | ⟨accepted, artifact, dealt, ciphertext, slots, created, run⟩ :=
    hostCreates_cases cb kp call coded
  · exact absurd ok failed
  · obtain ⟨_, _, _, filled⟩ := createBackup_outputs each created
    rw [run] at ok
    obtain ⟨fields, buffers⟩ := writeBackup_ok ok
    have wrote := run.trans (by rw [ok])
    refine ⟨_, _, artifact, dealt, wrote, created, fields, ?_,
      written_of_backupCreate each accepted wrote⟩
    rw [buffers]
    exact List.map_congr_left fun share mem => copyOutBuffer_filled (filled share mem)

theorem hostBackupCreate_eq_ok {jsi : Jsi} {options : Option JsArgument} {artifacts : JsBackup}
    (made : hostBackupCreate jsi cb gcm machine kp options = .ok artifacts) :
    ∃ call cipher shares, BackupCreate.run jsi options = .ok call ∧
      hostCreates cb gcm machine kp call = (.ok, ⟨some cipher, some shares⟩) ∧
      artifacts = writeBackupObjects cipher shares.toList := by
  unfold hostBackupCreate at made
  split at made
  · cases made
  next call called =>
    split at made
    next cipher shares wrote =>
      exact ⟨call, cipher, shares, called, wrote, (Except.ok.inj made).symm⟩
    next => cases made

theorem hostBackupCreate_ok_iff (each : cb.SharesEach) (coded : Coded gcm machine.heap) {jsi : Jsi}
    {options : Option JsArgument} (called : BackupCreate.run jsi options = .ok call) :
    (∃ artifacts, hostBackupCreate jsi cb gcm machine kp options = .ok artifacts) ↔
      (hostCreates cb gcm machine kp call).1 = .ok := by
  constructor
  · rintro ⟨artifacts, made⟩
    obtain ⟨call', cipher, shares, called', wrote, _⟩ := hostBackupCreate_eq_ok made
    obtain rfl : call' = call := Except.ok.inj (called'.symm.trans called)
    rw [wrote]
  · intro ok
    obtain ⟨cipher, shares, _, _, wrote, _⟩ := hostCreates_ok each coded ok
    exact ⟨writeBackupObjects cipher shares.toList, by simp only [hostBackupCreate, called, wrote]⟩

/-! ## The end of runDkg -/

namespace CoordinatorRn

variable {Storage : Type} {opts : DkgOptions Storage} {save : SaveOutcome} {jsi : Jsi}
  {server : Keypair Point Paillier} {backup : Option DeviceBackupOptions}

theorem saveShares_device {saved : List ShareRecord} {blob : Bytes}
    (kept : saveShares cb kp opts save server = (saved, .ok ()))
    (exported : exportKey cb.converter kp = .ok blob) (configured : opts.storage.isSome) :
    ⟨toHex blob, blob⟩ ∈ saved := by
  simp only [saveShares, configured, if_true, exported] at kept
  split at kept
  · cases (Prod.mk.inj kept).2
  · split_ifs at kept
    · obtain ⟨rfl, _⟩ := Prod.mk.inj kept
      exact List.mem_cons_self
    · split at kept
      · cases (Prod.mk.inj kept).2
      · split at kept
        · cases (Prod.mk.inj kept).2
        · obtain ⟨rfl, _⟩ := Prod.mk.inj kept
          exact List.mem_cons_self

/-- Where both keypairs are exported, only the storage can stop the saves. -/
theorem saveShares_exported (opts : DkgOptions Storage) (save : SaveOutcome)
    {deviceBlob serverBlob : Bytes}
    (device : exportKey cb.converter kp = .ok deviceBlob)
    (second : exportKey cb.converter server = .ok serverBlob) :
    (∀ record ∈ saves opts ⟨deviceBlob, serverBlob⟩, save record = .ok ()) ∧
        saveShares cb kp opts save server = (saves opts ⟨deviceBlob, serverBlob⟩, .ok ()) ∨
      (∃ record ∈ saves opts ⟨deviceBlob, serverBlob⟩, ∃ reason, save record = .error reason) ∧
        ∃ saved err, saveShares cb kp opts save server = (saved, .error err) ∧
          saved ≠ saves opts ⟨deviceBlob, serverBlob⟩ := by
  by_cases configured : opts.storage.isSome
  · cases first : save ⟨toHex deviceBlob, deviceBlob⟩ with
    | error reason =>
        refine .inr ⟨⟨⟨toHex deviceBlob, deviceBlob⟩, ?_, reason, first⟩, [],
          .storage reason, ?_, ?_⟩
        · simp [saves, configured]
        · simp only [saveShares, configured, if_true, device, first]
        · simp [saves, configured]
    | ok =>
        by_cases only : opts.mode = some .deviceOnly
        · exact .inl ⟨by simp [saves, configured, only, first],
            by simp [saveShares, saves, configured, device, only, first]⟩
        · cases next : save ⟨toHex deviceBlob ++ ":server", serverBlob⟩ with
          | error reason =>
              refine .inr ⟨⟨⟨toHex deviceBlob ++ ":server", serverBlob⟩, ?_, reason, next⟩,
                [⟨toHex deviceBlob, deviceBlob⟩], .storage reason, ?_, ?_⟩
              · simp [saves, configured, only]
              · simp only [saveShares, configured, if_true, device, first, only, if_false, second,
                  next]
              · simp [saves, configured, only]
          | ok =>
              exact .inl ⟨by simp [saves, configured, only, first, next],
                by simp [saveShares, saves, configured, device, only, first, second, next]⟩
  · exact .inl ⟨by simp [saves, configured], by simp [saveShares, saves, configured]⟩

theorem finishDkg_eq_ok {saved : List ShareRecord} {artifacts : Option JsBackup}
    (finished : finishDkg jsi cb gcm machine kp opts save server backup = (saved, .ok artifacts)) :
    saveShares cb kp opts save server = (saved, .ok ()) ∧
      maybeCreateBackup jsi cb gcm machine kp backup = .ok artifacts := by
  unfold finishDkg at finished
  split at finished
  · cases (Prod.mk.inj finished).2
  next kept =>
    obtain ⟨rfl, made⟩ := Prod.mk.inj finished
    exact ⟨kept, made⟩

theorem maybeCreateBackup_eq_ok (native : jsi.Documented) (each : cb.SharesEach)
    (coded : Coded gcm machine.heap) (range : ∀ given ∈ backup, DeviceBackupOptions.InRange given)
    {artifacts : JsBackup}
    (made : maybeCreateBackup jsi cb gcm machine kp backup = .ok (some artifacts)) :
    ∃ cipher shares artifact dealt, artifacts = writeBackupObjects cipher shares ∧
      createBackup cb gcm machine.rng kp (toUint32 (backupThreshold backup))
        (backupCount backup).toNat (labelOwner ((backupCall backup).label.map .bytes)) =
        .ok (artifact, dealt) ∧
      cipher = { artifact with
        label := copyOutBuffer artifact.label, ciphertext := copyOutBuffer artifact.payload } ∧
      shares = dealt.map .bytes ∧ Written cipher shares := by
  unfold maybeCreateBackup at made
  split_ifs at made
  · cases made
  · obtain ⟨_, made, ⟨⟩⟩ := Fallible.map_eq_ok.mp made
    obtain ⟨call, cipher, shares, called, wrote, rfl⟩ := hostBackupCreate_eq_ok made
    rw [run_backupOptions range native] at called
    split_ifs at called
    obtain rfl := Except.ok.inj called
    obtain ⟨_, _, artifact, dealt, wrote', created, fields, buffers, written⟩ :=
      hostCreates_ok each coded (by rw [wrote])
    rw [wrote] at wrote'
    simp only [Prod.mk.injEq, BackupOutputs.mk.injEq, Option.some.injEq, true_and] at wrote'
    obtain ⟨rfl, rfl⟩ := wrote'
    exact ⟨cipher, _, artifact, dealt, rfl, created, fields, buffers, written⟩

/-- The buffers of a backup reach `RestoreBackup` as what they were copied from. -/
theorem maanyMpcBackupRestore_written {artifact : BackupCiphertext} {chosen : List Bytes} :
    maanyMpcBackupRestore cb gcm
        { artifact with
          label := copyOutBuffer artifact.label, ciphertext := copyOutBuffer artifact.payload }
        (chosen.map .bytes) =
      (restoreBackup cb gcm artifact chosen).mapError Error.code := by
  have copied (data : Bytes) : copyInBuffer (copyOutBuffer data) = some data := by
    cases data <;> rfl
  simp only [maanyMpcBackupRestore, copied, mapM_copyInBuffer]

/-- Enough of the shares that were dealt are read by either binding and restore the keypair. -/
theorem dealt_restores (lawful : cb.Lawful) (hgcm : gcm.Lawful) {napi : NapiObjects}
    (node : napi.Documented) {objects : JsiObjects} (rn : objects.Documented)
    (declared : kp.scheme.Declared) {threshold : UInt32} {shareCount : ℕ} {label : Bytes}
    {artifact : BackupCiphertext} {dealt chosen : List Bytes} {cipher : MaanyMpcBackupCiphertext}
    (created : createBackup cb gcm machine.rng kp threshold shareCount label =
      .ok (artifact, dealt))
    (fields : cipher = { artifact with
      label := copyOutBuffer artifact.label, ciphertext := copyOutBuffer artifact.payload })
    (written : Written cipher (dealt.map .bytes)) (fits : shareCount < 2 ^ 31)
    (subset : chosen ⊆ dealt) (distinct : chosen.Nodup) (enough : threshold.toNat ≤ chosen.length) :
    Exchanged napi objects cipher (chosen.map .bytes) ∧
      maanyMpcBackupRestore cb gcm cipher (chosen.map .bytes) = .ok kp := by
  obtain ⟨_, _, _, _, _, _, _, _, _, same, _, _⟩ := createBackup_eq_ok created
  have scheme : cipher.scheme.Declared := by
    rw [fields]
    exact (createBackup_keypair created).2.2 ▸ declared
  have part : chosen.map Buf.bytes ⊆ dealt.map Buf.bytes := List.map_subset _ subset
  have many : cipher.threshold.toNat ≤ (chosen.map Buf.bytes).length := by
    rwa [fields, same, List.length_map]
  refine ⟨⟨JsBackupRestore.read_written node written scheme part many,
    BackupRestore.read_written rn written scheme part many⟩, ?_⟩
  rw [fields, maanyMpcBackupRestore_written,
    backup_round_trip lawful hgcm created fits subset distinct enough]
  rfl

theorem backupCount_lt (range : ∀ given ∈ backup, DeviceBackupOptions.InRange given) :
    (backupCount backup).toNat < 2 ^ 31 := by
  rw [backupCount]
  cases count : backup.bind DeviceBackupOptions.shareCount with
  | none => decide
  | some n =>
      obtain ⟨options, given, count⟩ := Option.bind_eq_some_iff.mp count
      obtain ⟨_, small⟩ := range options given n (.inr count)
      rw [Option.getD_some]
      omega

/-- Whenever `runDkg` resolves with a backup, any of its shares that are enough are read by either
binding, and restore the device keypair whose export `runDkg` has saved. -/
theorem device_backup_restores (lawful : cb.Lawful) (hgcm : gcm.Lawful) (each : cb.SharesEach)
    (coded : Coded gcm machine.heap) (native : jsi.Documented) {napi : NapiObjects}
    (node : napi.Documented) {objects : JsiObjects} (rn : objects.Documented)
    (declared : kp.scheme.Declared) (range : ∀ given ∈ backup, DeviceBackupOptions.InRange given)
    {saved : List ShareRecord} {artifacts : JsBackup}
    (finished : finishDkg jsi cb gcm machine kp opts save server backup =
      (saved, .ok (some artifacts))) :
    ∃ blob, exportKey cb.converter kp = .ok blob ∧
      (opts.storage.isSome → ⟨toHex blob, blob⟩ ∈ saved) ∧
      ∀ chosen, chosen ⊆ artifacts.shares.getD [] → chosen.Nodup →
        backupThreshold backup ≤ chosen.length →
        ∃ call, JsBackupRestore.read napi ⟨artifacts.ciphertext, some chosen⟩ none =
            some (some call, none) ∧
          (BackupRestore.read objects ⟨artifacts.ciphertext, some chosen⟩).run =
            some (.ok call) ∧
          maanyMpcBackupRestore cb gcm call.ciphertext call.shares = .ok kp := by
  obtain ⟨kept, made⟩ := finishDkg_eq_ok finished
  obtain ⟨cipher, shares, artifact, dealt, rfl, created, fields, rfl, written⟩ :=
    maybeCreateBackup_eq_ok native each coded range made
  obtain ⟨_, _, blob, _, _, _, exported, _⟩ := createBackup_eq_ok created
  refine ⟨blob, exported, saveShares_device kept exported, fun chosen drawn distinct enough => ?_⟩
  -- the chosen objects are those of some of the shares that were dealt
  have inside : chosen ⊆ dealt.map (writeShare ∘ Buf.bytes) := by
    simpa only [writeBackupObjects, Option.getD_some, List.map_map] using drawn
  obtain ⟨bytes, subset, rfl⟩ := exists_of_subset_map inside
  have bounds := (backupOptions_proper range).threshold_range
  rw [wantedThreshold_backupOptions] at bounds
  have many : (toUint32 (backupThreshold backup)).toNat ≤ bytes.length := by
    rw [List.length_map] at enough
    rw [toUint32_toNat bounds.2]
    omega
  obtain ⟨⟨read, read'⟩, restored⟩ := dealt_restores lawful hgcm node rn declared created fields
    written (backupCount_lt range) subset distinct.of_map many
  simp only [writeBackupObjects, List.map_map] at read read' ⊢
  exact ⟨_, read, read', restored⟩

/-- Nothing is asked for, and two of the three shares bring the device back. -/
theorem device_backup_restores_default : ∃ saved ciphertext first second third call,
    finishDkg sampleJsi sampleCb sampleGcm sampleMachine sampleKeypair
        (⟨some (), none, none⟩ : DkgOptions Unit) (fun _ => .ok ()) sampleKeypair none =
      (saved, .ok (some ⟨some ciphertext, some [first, second, third]⟩)) ∧
    JsBackupRestore.read sampleNapiObjects ⟨some ciphertext, some [third, first]⟩ none =
      some (some call, none) ∧
    maanyMpcBackupRestore sampleCb sampleGcm call.ciphertext call.shares = .ok sampleKeypair := by
  obtain ⟨saved, ciphertext, first, second, third, finished, apart⟩ :
      ∃ saved ciphertext first second third,
        finishDkg sampleJsi sampleCb sampleGcm sampleMachine sampleKeypair
            (⟨some (), none, none⟩ : DkgOptions Unit) (fun _ => .ok ()) sampleKeypair none =
          (saved, .ok (some ⟨some ciphertext, some [first, second, third]⟩)) ∧
        third ≠ first := by
    refine ⟨_, _, _, _, _, rfl, ?_⟩
    intro same
    injection same with same
    revert same
    decide +kernel
  obtain ⟨_, _, _, restores⟩ := device_backup_restores sampleCb_lawful
    sampleGcm_lawful sampleCb_sharesEach sampleMachine_coded sampleJsi_documented
    sampleNapiObjects_documented sampleJsiObjects_documented (.inl rfl) (by rintro _ ⟨⟩) finished
  obtain ⟨call, read, _, restored⟩ := restores [third, first] (by simp) (by simpa using apart)
    (show (2 : ℤ) ≤ ((2 : ℕ) : ℤ) by decide)
  exact ⟨saved, ciphertext, first, second, third, call, finished, read, restored⟩

/-- The backup fails if it is wanted and the options ask for too few shares, the call is refused or
its memory is not to be had. -/
theorem maybeCreateBackup_fails_iff (each : cb.SharesEach) (coded : Coded gcm machine.heap)
    (native : jsi.Documented) (range : ∀ given ∈ backup, DeviceBackupOptions.InRange given) :
    (∃ err, maybeCreateBackup jsi cb gcm machine kp backup = .error err) ↔
      backup.bind DeviceBackupOptions.enabled ≠ some false ∧
        (backupCount backup < backupThreshold backup ∨
          HostRefused cb gcm machine kp (backupCall backup) ∨
          ∃ i < backupMallocs ((backupCall backup).label.map .bytes)
            (backupCall backup).shareCount, machine.malloc i = false) := by
  rw [maybeCreateBackup]
  split_ifs with disabled
  · exact iff_of_false (by rintro ⟨_, ⟨⟩⟩) fun h => h.1 disabled
  · rw [and_iff_right disabled, Fallible.exists_map_eq_error]
    by_cases few : backupCount backup < backupThreshold backup
    · have rejected := run_backupOptions range native
      rw [if_pos few] at rejected
      refine iff_of_true ?_ (.inl few)
      rintro ⟨artifacts, made⟩
      obtain ⟨_, _, _, called, _⟩ := hostBackupCreate_eq_ok made
      exact Fallible.error_ne_ok (rejected.symm.trans called)
    · have called := run_backupOptions range native
      rw [if_neg few] at called
      rw [or_iff_right few, hostBackupCreate_ok_iff each coded called,
        hostCreates_ok_iff each coded, not_and_or, not_not]
      simp only [not_forall, Bool.not_eq_true, exists_prop]

/-- Once the shares are exported they are saved, whatever becomes of the backup, unless the storage
rejects one. `runDkg` rejects if and only if the storage does, or a backup is wanted and the options
ask for too few shares, the call is refused or its memory is not to be had. -/
theorem dkg_rejects_iff (each : cb.SharesEach) (coded : Coded gcm machine.heap)
    (native : jsi.Documented) (range : ∀ given ∈ backup, DeviceBackupOptions.InRange given)
    {deviceBlob serverBlob : Bytes} (device : exportKey cb.converter kp = .ok deviceBlob)
    (second : exportKey cb.converter server = .ok serverBlob) :
    ((finishDkg jsi cb gcm machine kp opts save server backup).1 =
        saves opts ⟨deviceBlob, serverBlob⟩ ↔
      ∀ record ∈ saves opts ⟨deviceBlob, serverBlob⟩, save record = .ok ()) ∧
      ((∃ err, (finishDkg jsi cb gcm machine kp opts save server backup).2 = .error err) ↔
        (∃ record ∈ saves opts ⟨deviceBlob, serverBlob⟩, ∃ reason, save record = .error reason) ∨
        backup.bind DeviceBackupOptions.enabled ≠ some false ∧
          (backupCount backup < backupThreshold backup ∨
            HostRefused cb gcm machine kp (backupCall backup) ∨
            ∃ i < backupMallocs ((backupCall backup).label.map .bytes)
              (backupCall backup).shareCount, machine.malloc i = false)) := by
  obtain ⟨kept, saved⟩ | ⟨⟨record, mem, reason, rejected⟩, saved, err, failed, less⟩ :=
    saveShares_exported opts save device second
  · have stored : ¬ ∃ record ∈ saves opts ⟨deviceBlob, serverBlob⟩, ∃ reason,
        save record = .error reason := by
      rintro ⟨record, mem, reason, rejected⟩
      exact Fallible.error_ne_ok (rejected.symm.trans (kept record mem))
    have finished : finishDkg jsi cb gcm machine kp opts save server backup =
        (saves opts ⟨deviceBlob, serverBlob⟩, maybeCreateBackup jsi cb gcm machine kp backup) := by
      rw [finishDkg, saved]
    rw [finished, or_iff_right stored]
    exact ⟨iff_of_true rfl kept, maybeCreateBackup_fails_iff each coded native range⟩
  · have finished : finishDkg jsi cb gcm machine kp opts save server backup =
        (saved, .error err) := by
      rw [finishDkg, failed]
    rw [finished]
    refine ⟨iff_of_false less fun kept => ?_, iff_of_true ⟨err, rfl⟩
      (.inl ⟨record, mem, reason, rejected⟩)⟩
    exact Fallible.error_ne_ok (rejected.symm.trans (kept record mem))

/-- Four of three shares, with a storage that takes them. -/
theorem dkg_rejects_iff_few : ∃ blob,
    (finishDkg sampleJsi sampleCb sampleGcm sampleMachine sampleKeypair
        (⟨some (), none, none⟩ : DkgOptions Unit) (fun _ => .ok ()) sampleKeypair
        (some ⟨none, some 4, none, none⟩)).1 =
      saves (⟨some (), none, none⟩ : DkgOptions Unit) ⟨blob, blob⟩ ∧
    ∃ err, (finishDkg sampleJsi sampleCb sampleGcm sampleMachine sampleKeypair
      (⟨some (), none, none⟩ : DkgOptions Unit) (fun _ => .ok ()) sampleKeypair
      (some ⟨none, some 4, none, none⟩)).2 = .error err := by
  obtain ⟨blob, exported⟩ : ∃ blob, exportKey sampleCb.converter sampleKeypair = .ok blob :=
    ⟨_, rfl⟩
  have range : ∀ given ∈ some (⟨none, some 4, none, none⟩ : DeviceBackupOptions),
      DeviceBackupOptions.InRange given := by
    rintro _ ⟨⟩ n (⟨⟨⟩⟩ | ⟨⟨⟩⟩)
    decide
  obtain ⟨saved, rejects⟩ := dkg_rejects_iff sampleCb_sharesEach sampleMachine_coded
    sampleJsi_documented range exported exported
  exact ⟨blob, saved.mpr fun _ _ => rfl, rejects.mpr (.inr ⟨by decide, .inl (by decide)⟩)⟩

end CoordinatorRn

end MaanyMpc
