import MaanyMpc.Backup.RoundTrip
import MaanyMpc.Bridge.CApi

/-! # The points of a restore

`RestoreBackup` checks the number of shares, their length and their version byte, and
interpolates at the pids it then reads. The pids themselves are not checked. -/

namespace MaanyMpc

variable {Point Paillier Drbg : Type} {cb : CbMpc Point Paillier Drbg}

/-! ## The C API -/

/-- `maany_mpc_backup_ciphertext_t`. Its enumerations are those of the bridge under
`static_cast`. -/
structure MaanyMpcBackupCiphertext where
  kind : ShareKind
  scheme : Scheme
  curve : Curve
  keyId : KeyId
  threshold : UInt32
  shareCount : UInt32
  label : Buf
  ciphertext : Buf

/-- `maany_mpc_backup_restore` on pointers that are not null, with memory to spare. -/
def maanyMpcBackupRestore (cb : CbMpc Point Paillier Drbg) (gcm : AesGcm)
    (ciphertext : MaanyMpcBackupCiphertext) (shares : List Buf) :
    Except ErrorCode (Keypair Point Paillier) :=
  match copyInBuffer ciphertext.label, copyInBuffer ciphertext.ciphertext,
      shares.mapM copyInBuffer with
  | some label, some payload, some shares =>
    (restoreBackup cb gcm { kind := ciphertext.kind, scheme := ciphertext.scheme,
                            curve := ciphertext.curve, keyId := ciphertext.keyId,
                            threshold := ciphertext.threshold,
                            shareCount := ciphertext.shareCount, label, payload }
      shares).mapError Error.code
  | _, _, _ => .error .invalidArgument

theorem mapM_copyInBuffer (shares : List Bytes) :
    (shares.map Buf.bytes).mapM copyInBuffer = some shares := by
  induction shares with
  | nil => rfl
  | cons share shares ih => simp [ih, copyInBuffer]

/-- Byte strings reach `RestoreBackup` as they are. -/
theorem maanyMpcBackupRestore_bytes (gcm : AesGcm) (ciphertext : BackupCiphertext)
    (shares : List Bytes) :
    maanyMpcBackupRestore cb gcm
        { ciphertext with
          label := .bytes ciphertext.label, ciphertext := .bytes ciphertext.payload }
        (shares.map .bytes) =
      (restoreBackup cb gcm ciphertext shares).mapError Error.code := by
  simp only [maanyMpcBackupRestore, mapM_copyInBuffer]
  rfl

/-! ## What is checked -/

/-- A share of the right length and version. -/
def WellFormedShare (share : Bytes) : Prop :=
  share.length = 1 + scalarSize * 2 ∧ share.head? = some kBackupShareVersion

/-- The pid field of a share, as a number. -/
def pidField (share : Bytes) : Nat :=
  BigEndian.decode ((share.drop 1).take scalarSize)

/-- A call that passes every check. -/
structure Checked (ciphertext : BackupCiphertext) (shares : List Bytes) : Prop where
  threshold_pos : 1 ≤ ciphertext.threshold.toNat
  enough : ciphertext.threshold.toNat ≤ shares.length
  wellFormed : ∀ share ∈ shares, WellFormedShare share

def sharePoint (cb : CbMpc Point Paillier Drbg) (share : Bytes) : Int × Int :=
  (cb.fromBin ((share.drop 1).take scalarSize),
    cb.fromBin ((share.drop (1 + scalarSize)).take scalarSize))

theorem decodeShare_wellFormed {share : Bytes} (h : WellFormedShare share) :
    decodeShare cb share scalarSize = .ok (sharePoint cb share) := by
  rw [decodeShare, if_neg (not_not.mpr h.1), if_neg (not_not.mpr h.2), sharePoint]

theorem decodeShare_malformed (cb : CbMpc Point Paillier Drbg) {share : Bytes}
    (h : ¬ WellFormedShare share) :
    ∃ err, decodeShare cb share scalarSize = .error err ∧ err.code = .invalidArgument := by
  unfold decodeShare
  split_ifs with length version
  · exact ⟨_, rfl, rfl⟩
  · exact ⟨_, rfl, rfl⟩
  · exact absurd ⟨not_not.mp length, not_not.mp version⟩ h

/-- A checked call interpolates at the points of its shares. -/
theorem restorePoints_checked {ciphertext : BackupCiphertext} {shares : List Bytes}
    (h : Checked ciphertext shares) :
    restorePoints cb ciphertext shares = .ok (shares.map (sharePoint cb)) := by
  rw [restorePoints_threshold h.threshold_pos h.enough]
  exact Fallible.mapM_eq_map fun share mem => decodeShare_wellFormed (h.wellFormed share mem)

/-- Any other call is refused as an invalid argument. -/
theorem restorePoints_unchecked (cb : CbMpc Point Paillier Drbg) {ciphertext : BackupCiphertext}
    {shares : List Bytes} (h : ¬ Checked ciphertext shares) :
    ∃ err, restorePoints cb ciphertext shares = .error err ∧ err.code = .invalidArgument := by
  by_cases inside : 1 ≤ ciphertext.threshold.toNat ∧ ciphertext.threshold.toNat ≤ shares.length
  · rw [restorePoints_threshold inside.1 inside.2]
    cases decoded : shares.mapM fun share => decodeShare cb share scalarSize with
    | error err =>
        obtain ⟨share, _, failed⟩ := Fallible.exists_of_mapM_eq_error decoded
        refine ⟨err, rfl, ?_⟩
        by_cases wellFormed : WellFormedShare share
        · rw [decodeShare_wellFormed wellFormed] at failed
          cases failed
        · obtain ⟨err', malformed, code⟩ := decodeShare_malformed cb wellFormed
          obtain rfl : err' = err := Except.error.inj (malformed.symm.trans failed)
          exact code
    | ok points =>
        refine absurd ⟨inside.1, inside.2, fun share mem => ?_⟩ h
        obtain ⟨point, read⟩ := Fallible.forall_of_mapM_eq_ok decoded share mem
        by_contra malformed
        obtain ⟨err, failed, _⟩ := decodeShare_malformed cb malformed
        rw [failed] at read
        cases read
  · exact restorePoints_refused cb inside

/-! ## What would have to be -/

/-- The points can be interpolated: all denominators are invertible and none of the values
is the secret already. -/
def PointsValid (pids : List Int) : Prop :=
  (pids.map fun pid : Int => (pid : Scalar)).Nodup ∧ ∀ pid ∈ pids, (pid : Scalar) ≠ 0

/-- `RestoreBackup` reaches the interpolation with valid points, or refuses the shares as an
invalid argument. -/
def RejectsInvalid (cb : CbMpc Point Paillier Drbg) (ciphertext : BackupCiphertext)
    (shares : List Bytes) : Prop :=
  match restorePoints cb ciphertext shares with
  | .ok points => PointsValid (points.map Prod.fst)
  | .error err => err.code = .invalidArgument

/-- Neither number is zero modulo the order, and the two do not agree modulo it; for numbers
of 32 bytes. -/
structure Apart (pids : List Nat) : Prop where
  ne_zero : ∀ pid ∈ pids, pid ≠ 0 ∧ pid ≠ secp256k1Order
  pairwise : pids.Pairwise fun a b => a ≠ b ∧ a ≠ b + secp256k1Order ∧ b ≠ a + secp256k1Order

theorem mod_eq_cases {n a : Nat} (h : a < 2 * n) : a % n = a ∧ a < n ∨ a % n + n = a := by
  by_cases small : a < n
  · exact .inl ⟨Nat.mod_eq_of_lt small, small⟩
  · right
    rw [Nat.mod_eq_sub_mod (Nat.not_lt.mp small), Nat.mod_eq_of_lt (by omega)]
    omega

theorem scalar_eq_iff {a b : Nat} (ha : a < 2 * secp256k1Order) (hb : b < 2 * secp256k1Order) :
    (a : Scalar) = b ↔ a = b ∨ a = b + secp256k1Order ∨ b = a + secp256k1Order := by
  rw [ZMod.natCast_eq_natCast_iff']
  constructor
  · intro same
    rcases mod_eq_cases ha with ⟨_, _⟩ | _ <;> rcases mod_eq_cases hb with ⟨_, _⟩ | _ <;> omega
  · rintro (rfl | rfl | rfl)
    · rfl
    · exact Nat.add_mod_right ..
    · exact (Nat.add_mod_right ..).symm

theorem pidField_lt (share : Bytes) : pidField share < 2 * secp256k1Order := by
  have short : ((share.drop 1).take scalarSize).length ≤ 32 := List.length_take_le ..
  calc pidField share < 256 ^ ((share.drop 1).take scalarSize).length := BigEndian.decode_lt _
    _ ≤ 256 ^ 32 := Nat.pow_le_pow_right (by decide) short
    _ ≤ 2 * secp256k1Order := by decide

theorem pointsValid_iff_apart (fromBin : ∀ bytes, cb.fromBin bytes = BigEndian.decode bytes)
    (shares : List Bytes) :
    PointsValid ((shares.map (sharePoint cb)).map Prod.fst) ↔ Apart (shares.map pidField) := by
  have pids : (shares.map (sharePoint cb)).map Prod.fst =
      (shares.map pidField).map fun pid : Nat => (pid : Int) := by
    rw [List.map_map, List.map_map]
    apply List.map_congr_left
    intro share _
    exact fromBin _
  have zero : ∀ share : Bytes, (pidField share : Scalar) ≠ 0 ↔
      pidField share ≠ 0 ∧ pidField share ≠ secp256k1Order := by
    intro share
    have order : secp256k1Order ≠ 0 := by decide
    have split := scalar_eq_iff (pidField_lt share) (b := 0) (by decide)
    rw [Nat.cast_zero] at split
    rw [Ne, split]
    omega
  have same : ∀ a b : Bytes, (pidField a : Scalar) ≠ pidField b ↔ pidField a ≠ pidField b ∧
      pidField a ≠ pidField b + secp256k1Order ∧ pidField b ≠ pidField a + secp256k1Order := by
    intro a b
    rw [Ne, scalar_eq_iff (pidField_lt a) (pidField_lt b)]
    omega
  rw [PointsValid, pids]
  simp only [List.map_map, List.Nodup, List.pairwise_map, List.forall_mem_map, Function.comp_apply,
    Int.cast_natCast]
  constructor
  · rintro ⟨distinct, nonzero⟩
    refine ⟨?_, ?_⟩
    · rw [List.forall_mem_map]
      exact fun share mem => (zero share).mp (nonzero share mem)
    · rw [List.pairwise_map]
      exact distinct.imp fun {a b} => (same a b).mp
  · intro h
    have apart := h.pairwise
    rw [List.pairwise_map] at apart
    exact ⟨apart.imp fun {a b} => (same a b).mpr,
      fun share mem => (zero share).mpr (List.forall_mem_map.mp h.ne_zero share mem)⟩

/-- The shares are refused whenever they should be if and only if those that pass the checks
have pid fields that are neither zero nor the order, and differ pairwise by neither zero nor
the order. -/
theorem rejectsInvalid_iff (fromBin : ∀ bytes, cb.fromBin bytes = BigEndian.decode bytes)
    (ciphertext : BackupCiphertext) (shares : List Bytes) :
    RejectsInvalid cb ciphertext shares ↔
      (Checked ciphertext shares → Apart (shares.map pidField)) := by
  by_cases checked : Checked ciphertext shares
  · rw [RejectsInvalid, restorePoints_checked checked]
    simp only [checked, true_imp_iff]
    exact pointsValid_iff_apart fromBin shares
  · obtain ⟨err, refused, code⟩ := restorePoints_unchecked cb checked
    rw [RejectsInvalid, refused]
    simp only [checked, false_imp_iff, iff_true]
    exact code

/-! ## Two shares -/

def sampleCiphertext : BackupCiphertext where
  kind := .device
  scheme := .ecdsa2p
  curve := .secp256k1
  keyId := ⟨Vector.replicate 32 3⟩
  threshold := 2
  shareCount := 3
  label := []
  payload := List.replicate 32 0

def sampleShare (pid value : Int) : Bytes := encodeShare sampleCb pid value scalarSize

theorem checked_sampleShares (a b a' b' : Int) :
    Checked sampleCiphertext [sampleShare a b, sampleShare a' b'] where
  threshold_pos := by decide
  enough := le_refl 2
  wellFormed := by
    have one : ∀ pid value, WellFormedShare (sampleShare pid value) := fun pid value =>
      ⟨by simp [sampleShare, encodeShare, sampleCb, scalarSize], rfl⟩
    simp [one]

theorem rejectsInvalid_iff_distinct :
    RejectsInvalid sampleCb sampleCiphertext [sampleShare 1 7, sampleShare 3 9] := by
  apply (rejectsInvalid_iff (fun _ => rfl) _ _).mpr
  exact fun _ => ⟨by decide +kernel, by decide +kernel⟩

/-- The same share twice counts as two and is interpolated. -/
theorem repeated_share_accepted :
    ¬ RejectsInvalid sampleCb sampleCiphertext [sampleShare 1 7, sampleShare 1 7] := by
  rw [RejectsInvalid, restorePoints_checked (checked_sampleShares 1 7 1 7)]
  rintro ⟨distinct, _⟩
  simp at distinct

end MaanyMpc
