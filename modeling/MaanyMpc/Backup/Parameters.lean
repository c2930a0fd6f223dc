import MaanyMpc.Backup.Metadata

/-! # The parameters of a backup

`CreateBackup` checks that the threshold is positive and at most the share count, and then
converts both to `int`, each pid from `size_t` to `int` and the count to `uint32_t`. -/

namespace MaanyMpc

/-! ## What is asked for -/

/-- The pids from one to the share count. -/
def pidsUpTo (shareCount : Nat) : List Int :=
  (List.range shareCount).map fun i : Nat => (i : Int) + 1

/-- A conversion changes the value that it is applied to. -/
inductive Wraps (threshold : UInt32) (shareCount : UInt64) : Prop where
  | threshold (changed : staticCastInt threshold.toNat ≠ threshold.toNat)
  | n (changed : staticCastInt shareCount.toNat ≠ shareCount.toNat)
  | pid (i : Nat) (below : i < shareCount.toNat) (changed : staticCastInt (i + 1) ≠ i + 1)
  | recorded (changed : (UInt32.ofNat shareCount.toNat).toNat ≠ shareCount.toNat)

/-- A backup that was made with the numbers as they were given. -/
structure MadeWith {Point Paillier Drbg : Type} (cb : CbMpc Point Paillier Drbg)
    (threshold : UInt32) (shareCount : UInt64) (artifact : BackupCiphertext)
    (shares : List Bytes) : Prop where
  threshold_eq : artifact.threshold = threshold
  recorded : artifact.shareCount.toNat = shareCount.toNat
  shares_eq : ∃ seed, shares =
    List.zipWith (fun pid value => encodeShare cb pid value scalarSize)
      (pidsUpTo shareCount.toNat)
      (cb.shareThreshold secp256k1Order (cb.genBn (cb.drbg seed) secp256k1Order).1
        threshold.toNat shareCount.toNat (pidsUpTo shareCount.toNat)
        (cb.genBn (cb.drbg seed) secp256k1Order).2)
  positive : ∀ pid ∈ pidsUpTo shareCount.toNat, 0 < pid
  distinct : (pidsUpTo shareCount.toNat).Nodup

/-- Every backup that is made with them is made with the numbers as they were given. -/
def UsesParameters (threshold : UInt32) (shareCount : UInt64) : Prop :=
  ∀ (Point Paillier Drbg : Type) (cb : CbMpc Point Paillier Drbg) (gcm : AesGcm) (rng : Rng)
    (kp : Keypair Point Paillier) (label : Bytes) (artifact : BackupCiphertext)
    (shares : List Bytes),
    createBackup cb gcm rng kp threshold shareCount.toNat label = .ok (artifact, shares) →
      MadeWith cb threshold shareCount artifact shares

/-- If they do not fit, no backup is made with them. -/
def RefusesWrapping (threshold : UInt32) (shareCount : UInt64) : Prop :=
  Wraps threshold shareCount →
    ∀ (Point Paillier Drbg : Type) (cb : CbMpc Point Paillier Drbg) (gcm : AesGcm) (rng : Rng)
      (kp : Keypair Point Paillier) (label : Bytes),
      ∃ err, createBackup cb gcm rng kp threshold shareCount.toNat label = .error err ∧
        err.code = .invalidArgument

theorem pidsUpTo_pos {shareCount : Nat} {pid : Int} (mem : pid ∈ pidsUpTo shareCount) :
    0 < pid := by
  obtain ⟨i, _, rfl⟩ := List.mem_map.mp mem
  omega

theorem pidsUpTo_nodup (shareCount : Nat) : (pidsUpTo shareCount).Nodup := by
  apply List.nodup_range.map
  intro i j same
  simpa using same

/-! ## The conversions -/

theorem staticCastInt_lt (n : Nat) : staticCastInt n < 2 ^ 31 := by
  have upper : Int.bmod n (2 ^ 32) < ((2 ^ 32 : Nat) + 1 : Int) / 2 := Int.bmod_lt (by decide)
  unfold staticCastInt
  omega

/-- An `int` holds what is below its bound. -/
theorem staticCastInt_eq_iff {n : Nat} : staticCastInt n = n ↔ n < 2 ^ 31 := by
  constructor
  · intro same
    have below := staticCastInt_lt n
    omega
  · exact staticCastInt_of_lt

theorem backupPids_of_lt {shareCount : Nat} (fits : shareCount < 2 ^ 31) :
    backupPids shareCount = pidsUpTo shareCount := by
  unfold backupPids pidsUpTo
  apply List.map_congr_left
  intro i mem
  have below := List.mem_range.mp mem
  rw [staticCastInt_of_lt (by omega), Nat.cast_succ]

theorem checkBackupArguments_refused {threshold : UInt32} {shareCount : Nat}
    (outside : ¬ (1 ≤ threshold.toNat ∧ threshold.toNat ≤ shareCount)) :
    ∃ err, checkBackupArguments threshold shareCount = .error err ∧
      err.code = .invalidArgument := by
  unfold checkBackupArguments
  split_ifs with zero few none
  · exact ⟨_, rfl, rfl⟩
  · exact ⟨_, rfl, rfl⟩
  · exact ⟨_, rfl, rfl⟩
  · exact absurd ⟨threshold_not_lt_one.mp zero, Nat.not_lt.mp few⟩ outside

/-- The arguments are refused before anything is converted. -/
theorem createBackup_refused {Point Paillier Drbg : Type} (cb : CbMpc Point Paillier Drbg)
    (gcm : AesGcm) (rng : Rng) (kp : Keypair Point Paillier) {threshold : UInt32}
    {shareCount : Nat} (label : Bytes)
    (outside : ¬ (1 ≤ threshold.toNat ∧ threshold.toNat ≤ shareCount)) :
    ∃ err, createBackup cb gcm rng kp threshold shareCount label = .error err ∧
      err.code = .invalidArgument := by
  obtain ⟨err, refused, code⟩ := checkBackupArguments_refused outside
  refine ⟨err, ?_, code⟩
  rw [createBackup, refused]
  rfl

/-! ## Counts that fit -/

/-- The threshold is at most the count, and with the count everything fits. -/
theorem not_wraps {threshold : UInt32} {shareCount : UInt64}
    (le : threshold.toNat ≤ shareCount.toNat) (fits : shareCount.toNat < 2 ^ 31) :
    ¬ Wraps threshold shareCount := by
  rintro (changed | changed | ⟨i, below, changed⟩ | changed)
  · exact changed (staticCastInt_of_lt (by omega))
  · exact changed (staticCastInt_of_lt fits)
  · refine changed ?_
    rw [staticCastInt_of_lt (by omega), Nat.cast_succ]
  · refine changed (UInt32.toNat_ofNat_of_lt' ?_)
    exact fits.trans (by decide)

theorem usesParameters_of_lt {threshold : UInt32} {shareCount : UInt64}
    (fits : shareCount.toNat < 2 ^ 31) : UsesParameters threshold shareCount := by
  intro Point Paillier Drbg cb gcm rng kp label artifact shares created
  obtain ⟨seed, _, _, secret, drbg, checked, _, drawn, _, sameThreshold, _, made⟩ :=
    createBackup_eq_ok created
  obtain ⟨_, le⟩ := checkBackupArguments_eq_ok checked
  obtain ⟨_, _, recorded, _⟩ := BackupRun.recorded ⟨rng, kp, _, _, _, _, _, created⟩
  refine ⟨sameThreshold, ?_, ⟨seed, ?_⟩, fun _ => pidsUpTo_pos, pidsUpTo_nodup _⟩
  · rw [recorded]
    exact UInt32.toNat_ofNat_of_lt' (fits.trans (by decide))
  · rw [made, backupShares, backupPids_of_lt fits, staticCastInt_of_lt fits,
      staticCastInt_of_lt (by omega), drawn]

/-! ## Counts that do not fit -/

/-- Whatever passes the checks makes a backup. -/
theorem createBackup_sample {threshold : UInt32} {shareCount : Nat}
    (pos : 1 ≤ threshold.toNat) (le : threshold.toNat ≤ shareCount) :
    ∃ artifact secret drbg,
      createBackup sampleCb sampleGcm sampleRng sampleKeypair threshold shareCount [] =
        .ok (artifact, backupShares sampleCb secret threshold shareCount drbg) := by
  obtain ⟨artifact, created⟩ := createBackup_of_checked (checkBackupArguments_of_le pos le)
    (show exportKey sampleCb.converter sampleKeypair = .ok _ from rfl)
    (show randomBytes sampleRng 0 32 = .ok _ from rfl) rfl (by decide)
    fun key _ => ⟨_, show sampleGcm.encrypt key _ [] _ = .ok _ from rfl⟩
  exact ⟨artifact, _, _, created⟩

/-- A share starts with its pid. -/
theorem encodeShare_pid {Point Paillier Drbg : Type} {cb : CbMpc Point Paillier Drbg}
    {pid pid' value value' : Int} {size : Nat}
    (same : encodeShare cb pid value size = encodeShare cb pid' value' size) :
    (cb.toBin size pid).toList = (cb.toBin size pid').toList := by
  have lengths : (cb.toBin size pid).toList.length = (cb.toBin size pid').toList.length := by
    rw [Vector.length_toList, Vector.length_toList]
  exact (List.append_inj (List.cons.inj same).2 lengths).1

/-- The share at place `i` of the sample has the pid that `i + 1` is converted to. -/
theorem sample_shares_ne {secret secret' drbg drbg' threshold threshold' : Int}
    {n n' : Int} {shareCount : Nat} (wide : 2 ^ 31 ≤ shareCount) :
    List.zipWith (fun pid value => encodeShare sampleCb pid value scalarSize)
        (backupPids shareCount)
        (sampleCb.shareThreshold secp256k1Order secret threshold n (backupPids shareCount) drbg) ≠
      List.zipWith (fun pid value => encodeShare sampleCb pid value scalarSize)
        (pidsUpTo shareCount)
        (sampleCb.shareThreshold secp256k1Order secret' threshold' n' (pidsUpTo shareCount)
          drbg') := by
  intro same
  have place := congrArg (·[2 ^ 31 - 1]?) same
  simp only [sampleCb, List.zipWith_map_right, List.zipWith_self, List.getElem?_map, backupPids,
    pidsUpTo, List.getElem?_range (show 2 ^ 31 - 1 < shareCount by omega), Option.map_some,
    Option.some.injEq] at place
  have pids : BigEndian.encode scalarSize (staticCastInt (2 ^ 31)).toNat =
      BigEndian.encode scalarSize (2 ^ 31) := encodeShare_pid place
  revert pids
  decide

theorem lt_of_usesParameters {threshold : UInt32} {shareCount : UInt64}
    (pos : 1 ≤ threshold.toNat) (le : threshold.toNat ≤ shareCount.toNat)
    (uses : UsesParameters threshold shareCount) : shareCount.toNat < 2 ^ 31 := by
  by_contra wide
  obtain ⟨artifact, secret, drbg, created⟩ := createBackup_sample pos le
  obtain ⟨seed, made⟩ := (uses _ _ _ _ _ _ _ _ _ _ created).shares_eq
  exact sample_shares_ne (Nat.not_lt.mp wide) made

theorem lt_of_refusesWrapping {threshold : UInt32} {shareCount : UInt64}
    (pos : 1 ≤ threshold.toNat) (le : threshold.toNat ≤ shareCount.toNat)
    (refuses : RefusesWrapping threshold shareCount) : shareCount.toNat < 2 ^ 31 := by
  by_contra wide
  have wraps : Wraps threshold shareCount := .n (mt staticCastInt_eq_iff.mp wide)
  obtain ⟨artifact, secret, drbg, created⟩ := createBackup_sample pos le
  obtain ⟨err, refused, _⟩ := refuses wraps Unit Unit Int sampleCb sampleGcm sampleRng
    sampleKeypair []
  rw [created] at refused
  cases refused

/-! ## The parameters that are kept -/

/-- A backup is made with its parameters, and none with parameters that do not fit, if and only
if the count is below `2 ^ 31` or the two are refused. -/
theorem parameters_kept_iff (threshold : UInt32) (shareCount : UInt64) :
    (UsesParameters threshold shareCount ↔ shareCount.toNat < 2 ^ 31 ∨
      ¬ (1 ≤ threshold.toNat ∧ threshold.toNat ≤ shareCount.toNat)) ∧
    (RefusesWrapping threshold shareCount ↔ shareCount.toNat < 2 ^ 31 ∨
      ¬ (1 ≤ threshold.toNat ∧ threshold.toNat ≤ shareCount.toNat)) := by
  by_cases passes : 1 ≤ threshold.toNat ∧ threshold.toNat ≤ shareCount.toNat
  · obtain ⟨pos, le⟩ := passes
    refine ⟨⟨fun uses => .inl (lt_of_usesParameters pos le uses), ?_⟩,
      ⟨fun refuses => .inl (lt_of_refusesWrapping pos le refuses), ?_⟩⟩
    · rintro (fits | outside)
      · exact usesParameters_of_lt fits
      · exact absurd ⟨pos, le⟩ outside
    · rintro (fits | outside) wraps
      · exact absurd wraps (not_wraps le fits)
      · exact absurd ⟨pos, le⟩ outside
  · refine ⟨iff_of_true ?_ (.inr passes), iff_of_true ?_ (.inr passes)⟩
    · intro Point Paillier Drbg cb gcm rng kp label artifact shares created
      obtain ⟨err, refused, _⟩ := createBackup_refused cb gcm rng kp label passes
      rw [created] at refused
      cases refused
    · intro _ Point Paillier Drbg cb gcm rng kp label
      exact createBackup_refused cb gcm rng kp label passes

/-- One share of `2 ^ 31` is enough: the last pid is negative. -/
theorem last_pid_wraps :
    ¬ UsesParameters 1 2147483648 ∧ ¬ RefusesWrapping 1 2147483648 := by
  constructor
  · intro uses
    exact absurd (lt_of_usesParameters (by decide) (by decide) uses) (by decide)
  · intro refuses
    exact absurd (lt_of_refusesWrapping (by decide) (by decide) refuses) (by decide)

end MaanyMpc
