import MaanyMpc.Backup.Points

/-! # The outputs of a backup

`maany_mpc_backup_create` writes the caller's structures field by field and share by share,
each share into a buffer of its own from `malloc_fn`, and returns at the first one that is not
to be had. -/

namespace MaanyMpc

variable {Point Paillier Drbg : Type}

/-! ## The C API -/

/-- What a backup uses of `maany_mpc_ctx_t`: the random source of its bridge context. -/
structure MaanyMpcCtx where
  bridge : Option Rng

structure MaanyMpcKp (Point Paillier : Type) where
  keypair : Option (Keypair Point Paillier)

/-- `out_ciphertext` and `out_shares`. -/
structure BackupOutputs (shareCount : Nat) where
  ciphertext : Option MaanyMpcBackupCiphertext
  shares : Option (Vector Buf shareCount)

/-- The C++ heap: whether it has room for the label, and what `CreateBackup` throws if it runs
out there. -/
structure Heap where
  copyIn : Bool
  createBackup : Option BridgeException

/-- `label_owner`. -/
def labelOwner : Option Buf → Bytes
  | none | some (.null _) => []
  | some (.bytes data) => data

/-- The call of the bridge. -/
def bridgeCreateBackup (cb : CbMpc Point Paillier Drbg) (gcm : AesGcm) (rng : Rng)
    (kp : Keypair Point Paillier) (threshold : UInt32) (shareCount : Nat) (label : Bytes)
    (heap : Heap) : Except BridgeException (BackupCiphertext × List Bytes) :=
  match heap.createBackup with
  | some exception => .error exception
  | none => (createBackup cb gcm rng kp threshold shareCount label).mapError .error

/-- The fields that are assigned or copied. -/
def MaanyMpcBackupCiphertext.assign (out : MaanyMpcBackupCiphertext)
    (artifact : BackupCiphertext) : MaanyMpcBackupCiphertext :=
  { out with
    kind := artifact.kind
    scheme := artifact.scheme
    curve := artifact.curve
    keyId := artifact.keyId
    threshold := artifact.threshold
    shareCount := artifact.shareCount }

/-- The loop over the shares, from share `i` on. `malloc` tells for each call of `malloc_fn`
whether it succeeds, `calls` is the number of those made. -/
def copyOutShares {shareCount : Nat} (malloc : Nat → Bool) (calls i : Nat) :
    List Bytes → Vector Buf shareCount → MaanyMpcError × Vector Buf shareCount
  | [], out => (.ok, out)
  | share :: shares, out =>
    let (status, buf) := tryCopyOutBuffer (malloc calls) share
    let out := out.setIfInBounds i buf
    if status ≠ .ok then (status, out)
    else copyOutShares malloc (calls + mallocs share) (i + 1) shares out

/-- Everything after `CreateBackup`. -/
def writeBackup {shareCount : Nat} (malloc : Nat → Bool) (artifact : BackupCiphertext)
    (shares : List Bytes) (ciphertext : MaanyMpcBackupCiphertext) (out : Vector Buf shareCount) :
    MaanyMpcError × MaanyMpcBackupCiphertext × Vector Buf shareCount :=
  let ciphertext := ciphertext.assign artifact
  let (status, label) := tryCopyOutBuffer (malloc 0) artifact.label
  let ciphertext := { ciphertext with label }
  if status ≠ .ok then (status, ciphertext, out)
  else
    let calls := mallocs artifact.label
    let (status, payload) := tryCopyOutBuffer (malloc calls) artifact.payload
    let ciphertext := { ciphertext with ciphertext := payload }
    if status ≠ .ok then (status, ciphertext, out)
    else if shares.length ≠ shareCount then (.general, ciphertext, out)
    else
      let (status, out) := copyOutShares malloc (calls + mallocs artifact.payload) 0 shares out
      (status, ciphertext, out)

/-- `maany_mpc_backup_create`. -/
def maanyMpcBackupCreate (cb : CbMpc Point Paillier Drbg) (gcm : AesGcm)
    (ctx : Option MaanyMpcCtx) (kp : Option (MaanyMpcKp Point Paillier)) (threshold : UInt32)
    (shareCount : Nat) (label : Option Buf) (heap : Heap) (malloc : Nat → Bool)
    (out : BackupOutputs shareCount) : MaanyMpcError × BackupOutputs shareCount :=
  match ctx.bind MaanyMpcCtx.bridge, kp.bind MaanyMpcKp.keypair, out.ciphertext, out.shares with
  | some rng, some kp, some ciphertext, some shares =>
    if labelOwner label ≠ [] ∧ heap.copyIn = false then (.invalidArg, out)
    else
      match bridgeCreateBackup cb gcm rng kp threshold shareCount (labelOwner label) heap with
      | .error exception => (translateException exception, out)
      | .ok (artifact, dealt) =>
        let (status, ciphertext, shares) := writeBackup malloc artifact dealt ciphertext shares
        (status, ⟨some ciphertext, some shares⟩)
  | _, _, _, _ => (.invalidArg, out)

/-! ## One loop, one call -/

/-- The loop gets through if and only if the calls of `malloc_fn` for its shares succeed. -/
theorem copyOutShares_status {shareCount : Nat} (malloc : Nat → Bool) {shares : List Bytes}
    (filled : ∀ share ∈ shares, share ≠ []) (calls i : Nat) (out : Vector Buf shareCount) :
    (copyOutShares malloc calls i shares out).1 = .ok ↔
      ∀ k < shares.length, malloc (calls + k) = true := by
  induction shares generalizing calls i out with
  | nil => simp [copyOutShares]
  | cons share shares ih =>
      obtain ⟨first, rest⟩ := List.forall_mem_cons.mp filled
      have one : mallocs share = 1 := if_neg first
      have status := tryCopyOutBuffer_status (malloc calls) share
      rw [or_iff_right first] at status
      rw [List.length_cons, Nat.forall_lt_succ_left, Nat.add_zero]
      simp only [copyOutShares, ne_eq, ite_not]
      by_cases allocated : malloc calls = true
      · rw [if_pos (status.mpr allocated), ih rest, one, and_iff_right allocated]
        simp only [Nat.add_assoc, Nat.add_comm 1]
      · rw [if_neg (mt status.mp allocated), status]
        simp [allocated]

section Write

variable {shareCount : Nat} (malloc : Nat → Bool) {artifact : BackupCiphertext}
  {shares : List Bytes} (ciphertext : MaanyMpcBackupCiphertext) (out : Vector Buf shareCount)

/-- The label, if there is one, the payload and each share take one call of `malloc_fn`. -/
theorem writeBackup_status (payload : artifact.payload ≠ []) (count : shares.length = shareCount)
    (filled : ∀ share ∈ shares, share ≠ []) :
    (writeBackup malloc artifact shares ciphertext out).1 = .ok ↔
      ∀ call < mallocs artifact.label + 1 + shareCount, malloc call = true := by
  have first := tryCopyOutBuffer_status (malloc 0) artifact.label
  have second := tryCopyOutBuffer_status (malloc (mallocs artifact.label)) artifact.payload
  have one : mallocs artifact.payload = 1 := if_neg payload
  rw [or_iff_right payload] at second
  have split : (∀ call < mallocs artifact.label + 1 + shareCount, malloc call = true) ↔
      (artifact.label = [] ∨ malloc 0 = true) ∧ malloc (mallocs artifact.label) = true ∧
        ∀ k < shareCount, malloc (mallocs artifact.label + 1 + k) = true := by
    by_cases empty : artifact.label = []
    · simp only [mallocs, empty, if_true, true_or, true_and, Nat.zero_add]
      rw [Nat.add_comm 1, Nat.forall_lt_succ_left]
      simp only [Nat.add_comm 1]
    · simp only [mallocs, empty, if_false, false_or]
      rw [Nat.add_comm, Nat.forall_lt_succ_left, Nat.forall_lt_succ_left]
      simp only [Nat.add_comm, Nat.add_left_comm, Nat.reduceAdd]
  rw [split, ← first, ← second]
  simp only [writeBackup, ne_eq, ite_not, one, count]
  split_ifs with label blob
  · simp [label, blob, copyOutShares_status malloc filled, count]
  · simp [blob]
  · simp [label]

@[simp] theorem writeBackup_threshold :
    (writeBackup malloc artifact shares ciphertext out).2.1.threshold = artifact.threshold := by
  simp only [writeBackup]
  split_ifs <;> rfl

end Write

/-! ## The whole call -/

variable {cb : CbMpc Point Paillier Drbg} {gcm : AesGcm}

/-- `share_threshold` returns a value for each pid. -/
def CbMpc.SharesEach (cb : CbMpc Point Paillier Drbg) : Prop :=
  ∀ (q secret threshold n : Int) (pids : List Int) (drbg : Drbg),
    (cb.shareThreshold q secret threshold n pids drbg).length = pids.length

/-- What the outputs are written from. -/
theorem createBackup_outputs (each : cb.SharesEach) {rng : Rng} {kp : Keypair Point Paillier}
    {threshold : UInt32} {shareCount : Nat} {label : Bytes} {artifact : BackupCiphertext}
    {shares : List Bytes}
    (created : createBackup cb gcm rng kp threshold shareCount label = .ok (artifact, shares)) :
    artifact.label = label ∧ artifact.payload ≠ [] ∧ shares.length = shareCount ∧
      ∀ share ∈ shares, share ≠ [] := by
  obtain ⟨_, nonce, _, secret, drbg, _, _, _, encrypted, _, rfl, rfl⟩ :=
    createBackup_eq_ok created
  obtain ⟨_, nonce12, _, _, _, _, payload⟩ := aesGcmEncrypt_eq_ok encrypted
  refine ⟨rfl, ?_, ?_, ?_⟩
  · intro empty
    rw [payload, List.append_assoc, List.append_eq_nil_iff] at empty
    rw [empty.1] at nonce12
    cases nonce12
  · rw [backupShares, List.length_zipWith, each, Nat.min_self, backupPids, List.length_map,
      List.length_range]
  · intro share mem
    obtain ⟨i, _, rfl⟩ := List.getElem_of_mem mem
    simp [backupShares, encodeShare]

/-- The call returns before it writes: a pointer is null, or the copy of the label or
`CreateBackup` throws. -/
inductive BackupRefused (cb : CbMpc Point Paillier Drbg) (gcm : AesGcm)
    (ctx : Option MaanyMpcCtx) (kp : Option (MaanyMpcKp Point Paillier)) (threshold : UInt32)
    (shareCount : Nat) (label : Option Buf) (heap : Heap) : Prop where
  | noContext (null : ctx.bind MaanyMpcCtx.bridge = none)
  | noKeypair (null : kp.bind MaanyMpcKp.keypair = none)
  | labelThrew (some : labelOwner label ≠ []) (full : heap.copyIn = false)
  | createThrew (rng : Rng) (keypair : Keypair Point Paillier) (exception : BridgeException)
      (bridge : ctx.bind MaanyMpcCtx.bridge = some rng)
      (held : kp.bind MaanyMpcKp.keypair = some keypair)
      (threw : bridgeCreateBackup cb gcm rng keypair threshold shareCount (labelOwner label) heap =
        .error exception)

/-- The calls of `malloc_fn` that a backup needs. -/
def backupMallocs (label : Option Buf) (shareCount : Nat) : Nat :=
  mallocs (labelOwner label) + 1 + shareCount

/-- Whenever the call returns something other than OK, its outputs are as they were passed. -/
def KeepsOutputs {σ : Type} (call : σ → MaanyMpcError × σ) : Prop :=
  ∀ out, (call out).1 ≠ .ok → (call out).2 = out

section Call

variable {ctx : Option MaanyMpcCtx} {kp : Option (MaanyMpcKp Point Paillier)}
  {threshold : UInt32} {shareCount : Nat} {label : Option Buf} {heap : Heap}

theorem bridgeCreateBackup_eq_ok {rng : Rng} {keypair : Keypair Point Paillier} {label : Bytes}
    {result : BackupCiphertext × List Bytes}
    (h : bridgeCreateBackup cb gcm rng keypair threshold shareCount label heap = .ok result) :
    createBackup cb gcm rng keypair threshold shareCount label = .ok result := by
  unfold bridgeCreateBackup at h
  cases thrown : heap.createBackup with
  | some exception => simp [thrown] at h
  | none =>
      cases created : createBackup cb gcm rng keypair threshold shareCount label with
      | error err => simp [thrown, created, Except.mapError] at h
      | ok value => simpa [thrown, created, Except.mapError] using h

theorem BackupRefused.keeps
    (refused : BackupRefused cb gcm ctx kp threshold shareCount label heap) (malloc : Nat → Bool)
    (out : BackupOutputs shareCount) :
    (maanyMpcBackupCreate cb gcm ctx kp threshold shareCount label heap malloc out).2 = out := by
  unfold maanyMpcBackupCreate
  split
  next rng keypair ciphertext slots bridge held _ _ =>
    cases refused with
    | noContext null => simp [null] at bridge
    | noKeypair null => simp [null] at held
    | labelThrew some full => rw [if_pos ⟨some, full⟩]
    | createThrew rng' keypair' exception bridge' held' threw =>
        obtain rfl : rng' = rng := Option.some.inj (bridge'.symm.trans bridge)
        obtain rfl : keypair' = keypair := Option.some.inj (held'.symm.trans held)
        rw [threw]
        split_ifs <;> rfl
  next => rfl

/-- A call that is not refused writes what `CreateBackup` has returned, unless it has nowhere to
write to. -/
theorem maanyMpcBackupCreate_of_not_refused
    (accepted : ¬ BackupRefused cb gcm ctx kp threshold shareCount label heap) :
    ∃ rng keypair artifact shares,
      createBackup cb gcm rng keypair threshold shareCount (labelOwner label) =
        .ok (artifact, shares) ∧
      ∀ malloc out, maanyMpcBackupCreate cb gcm ctx kp threshold shareCount label heap malloc out =
        match out.ciphertext, out.shares with
        | some ciphertext, some slots =>
          let written := writeBackup malloc artifact shares ciphertext slots
          (written.1, ⟨some written.2.1, some written.2.2⟩)
        | _, _ => (.invalidArg, out) := by
  obtain ⟨rng, bridge⟩ := Option.ne_none_iff_exists'.mp (mt BackupRefused.noContext accepted)
  obtain ⟨keypair, held⟩ := Option.ne_none_iff_exists'.mp (mt BackupRefused.noKeypair accepted)
  have room : ¬ (labelOwner label ≠ [] ∧ heap.copyIn = false) :=
    fun full => accepted (.labelThrew full.1 full.2)
  cases made : bridgeCreateBackup cb gcm rng keypair threshold shareCount (labelOwner label)
      heap with
  | error exception => exact absurd (.createThrew rng keypair exception bridge held made) accepted
  | ok result =>
      obtain ⟨artifact, shares⟩ := result
      refine ⟨rng, keypair, artifact, shares, bridgeCreateBackup_eq_ok made, ?_⟩
      rintro malloc ⟨ciphertext, slots⟩
      cases ciphertext <;> cases slots <;>
        simp only [maanyMpcBackupCreate, bridge, held, if_neg room, made]

end Call

/-- A caller can have passed something else than what is written. -/
theorem exists_threshold_ne (artifact : BackupCiphertext) :
    ∃ out : MaanyMpcBackupCiphertext, out.threshold ≠ artifact.threshold := by
  refine ⟨{ kind := .device, scheme := .ecdsa2p, curve := .secp256k1, keyId := artifact.keyId,
            threshold := artifact.threshold + 1, shareCount := 0, label := .null 0,
            ciphertext := .null 0 }, ?_⟩
  simp

/-- A failing backup leaves its outputs alone if and only if it returns before it writes, or no
call of `malloc_fn` for them fails. -/
theorem backup_keeps_outputs_iff (each : cb.SharesEach) (ctx : Option MaanyMpcCtx)
    (kp : Option (MaanyMpcKp Point Paillier)) (threshold : UInt32) (shareCount : Nat)
    (label : Option Buf) (heap : Heap) (malloc : Nat → Bool) :
    KeepsOutputs (maanyMpcBackupCreate cb gcm ctx kp threshold shareCount label heap malloc) ↔
      BackupRefused cb gcm ctx kp threshold shareCount label heap ∨
        ∀ call < backupMallocs label shareCount, malloc call = true := by
  by_cases refused : BackupRefused cb gcm ctx kp threshold shareCount label heap
  · exact iff_of_true (fun out _ => refused.keeps malloc out) (.inl refused)
  · rw [or_iff_right refused]
    obtain ⟨rng, keypair, artifact, shares, created, run⟩ :=
      maanyMpcBackupCreate_of_not_refused refused
    obtain ⟨sameLabel, payload, count, filled⟩ := createBackup_outputs each created
    have status (ciphertext : MaanyMpcBackupCiphertext) (slots : Vector Buf shareCount) :=
      writeBackup_status malloc ciphertext slots payload count filled
    rw [sameLabel] at status
    constructor
    · intro keeps
      by_contra short
      obtain ⟨ciphertext, other⟩ := exists_threshold_ne artifact
      have slots : Vector Buf shareCount := Vector.replicate shareCount (.null 0)
      have kept := keeps ⟨some ciphertext, some slots⟩
      rw [run] at kept
      have same := kept (mt (status ciphertext slots).mp short)
      simp only [BackupOutputs.mk.injEq, Option.some.injEq] at same
      apply other
      rw [← same.1, writeBackup_threshold]
    · rintro enough ⟨ciphertext, slots⟩ failed
      rw [run] at failed ⊢
      cases ciphertext with
      | none => rfl
      | some ciphertext =>
          cases slots with
          | none => rfl
          | some slots => exact absurd ((status ciphertext slots).mpr enough) failed

/-! ## Two shares of three -/

theorem sampleCb_sharesEach : sampleCb.SharesEach :=
  fun _ _ _ _ _ _ => List.length_map _

/-- Five calls of `malloc_fn`: the label, the payload and three shares. -/
theorem backup_keeps_outputs_two_of_three :
    KeepsOutputs (maanyMpcBackupCreate sampleCb sampleGcm (some ⟨some sampleRng⟩)
      (some ⟨some sampleKeypair⟩) 2 3 (some (.bytes [1])) ⟨true, none⟩ fun call => call < 5) :=
  (backup_keeps_outputs_iff sampleCb_sharesEach _ _ _ _ _ _ _).mpr (.inr (by decide))

/-- Nothing in the caller's structures yet. -/
def emptyOutputs : BackupOutputs 3 where
  ciphertext := some
    { kind := .device, scheme := .ecdsa2p, curve := .secp256k1,
      keyId := ⟨Vector.replicate 32 0⟩, threshold := 0, shareCount := 0, label := .null 0,
      ciphertext := .null 0 }
  shares := some #v[.null 0, .null 0, .null 0]

/-- The last share gets no buffer. The first two, as many as the threshold, stay with the caller
of a call that failed. -/
theorem shares_left_behind :
    ¬ KeepsOutputs (maanyMpcBackupCreate sampleCb sampleGcm (some ⟨some sampleRng⟩)
      (some ⟨some sampleKeypair⟩) 2 3 (some (.bytes [1])) ⟨true, none⟩ fun call => call < 4) := by
  intro keeps
  have run : ∃ ciphertext first second,
      maanyMpcBackupCreate sampleCb sampleGcm (some ⟨some sampleRng⟩) (some ⟨some sampleKeypair⟩)
          2 3 (some (.bytes [1])) ⟨true, none⟩ (fun call => call < 4) emptyOutputs =
        (.memory, ⟨some ciphertext, some #v[.bytes first, .bytes second, .null 0]⟩) :=
    ⟨_, _, _, rfl⟩
  obtain ⟨ciphertext, first, second, run⟩ := run
  have kept := keeps emptyOutputs (by simp [run])
  rw [run] at kept
  simp [emptyOutputs] at kept

end MaanyMpc
