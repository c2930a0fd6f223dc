import MaanyMpc.Backup.RoundTrip

/-! # What fewer shares than the threshold tell

`CreateBackup` deals the backup key with the coefficients that `share_threshold` draws from
the generator. Here the generator is the sequence of the coefficients. -/

namespace MaanyMpc

open Polynomial

variable {Point Paillier : Type} {cb : CbMpc Point Paillier (ℕ → Scalar)}

/-- `share_threshold` returns the values at the pids of the polynomial with the secret and the
drawn coefficients, one fewer than the threshold. -/
def CbMpc.DealsDrawn (cb : CbMpc Point Paillier (ℕ → Scalar)) : Prop :=
  ∀ (secret threshold n : Int) (pids : List Int) (drawn : ℕ → Scalar),
    0 < threshold → threshold ≤ n → pids.length = n →
    cb.shareThreshold secp256k1Order secret threshold n pids drawn = pids.map fun pid : Int =>
      ((Sharing.deal (secret : Scalar) (fun i : Fin (threshold.toNat - 1) => drawn i)
        (pid : Scalar)).val : Int)

/-- Such share values are as `Lawful` assumes them. -/
theorem CbMpc.DealsDrawn.shareThreshold (deals : cb.DealsDrawn) (secret threshold n : Int)
    (pids : List Int) (drawn : ℕ → Scalar) (pos : 0 < threshold) (le : threshold ≤ n)
    (length : pids.length = n) :
    ∃ p : Scalar[X], p.degree < threshold.toNat ∧ p.eval 0 = secret ∧
      List.Forall₂ (fun pid value : Int => 0 ≤ value ∧ value < secp256k1Order ∧
          p.eval (pid : Scalar) = value) pids
        (cb.shareThreshold secp256k1Order secret threshold n pids drawn) := by
  obtain ⟨p, degree, constant, values⟩ := Sharing.exists_polynomial_deal (secret : Scalar)
    (fun i : Fin (threshold.toNat - 1) => drawn i)
  refine ⟨p, ?_, constant, ?_⟩
  · rwa [Nat.sub_add_cancel (by omega)] at degree
  · rw [deals secret threshold n pids drawn pos le length, List.forall₂_map_right_iff,
      List.forall₂_same]
    intro pid _
    exact ⟨Int.natCast_nonneg _, Int.ofNat_lt.mpr (ZMod.val_lt _), by simp [values]⟩

/-- A generator that draws these coefficients first. -/
def drawing {k : ℕ} (coefficients : Fin k → Scalar) (i : ℕ) : Scalar :=
  if h : i < k then coefficients ⟨i, h⟩ else 0

/-- The share of the secret at the index, encoded. -/
def dealtShare (cb : CbMpc Point Paillier (ℕ → Scalar)) (dealt : Scalar → Scalar) (i : ℕ) :
    Bytes :=
  encodeShare cb (i + 1 : ℕ) (dealt (i + 1 : ℕ)).val scalarSize

theorem backupShares_drawing (deals : cb.DealsDrawn) (secret : Scalar) {threshold : UInt32}
    {shareCount : ℕ} (pos : 1 ≤ threshold.toNat) (le : threshold.toNat ≤ shareCount)
    (fits : shareCount < 2 ^ 31) (coefficients : Fin (threshold.toNat - 1) → Scalar) :
    backupShares cb secret.val threshold shareCount (drawing coefficients) =
      (List.range shareCount).map (dealtShare cb (Sharing.deal secret coefficients)) := by
  have castThreshold := staticCastInt_of_lt (show threshold.toNat < 2 ^ 31 by omega)
  have castCount := staticCastInt_of_lt fits
  have drawn : (fun i : Fin (threshold.toNat - 1) => drawing coefficients i) = coefficients := by
    funext i
    simp [drawing]
  rw [backupShares, castThreshold, castCount, deals _ _ _ _ _ (by omega) (by omega)
    (by simp [backupPids]), Int.toNat_natCast, drawn, List.zipWith_map_right, List.zipWith_self,
    backupPids, List.map_map]
  apply List.map_congr_left
  intro i mem
  have below := List.mem_range.mp mem
  have cast := staticCastInt_of_lt (show i + 1 < 2 ^ 31 by omega)
  simp [dealtShare, cast]

/-- No index is the one of the secret. -/
theorem index_ne_zero {shareCount : ℕ} (fits : shareCount < 2 ^ 31) (i : Fin shareCount) :
    ((i + 1 : ℕ) : Scalar) ≠ 0 := by
  intro zero
  have divides := (ZMod.natCast_eq_zero_iff _ _).mp zero
  have order := two_pow_31_lt_order
  have le := Nat.le_of_dvd (by omega) divides
  omega

/-- Fewer shares than the threshold, whatever their values, are dealt of every secret by as many
coefficients; and these are the shares that `CreateBackup` returns. -/
theorem backup_shares_hide_secret (deals : cb.DealsDrawn) {threshold : UInt32} {shareCount : ℕ}
    (pos : 1 ≤ threshold.toNat) (le : threshold.toNat ≤ shareCount) (fits : shareCount < 2 ^ 31) :
    (∀ (gcm : AesGcm) (rng : Rng) (kp : Keypair Point Paillier) (label : Bytes)
        (ciphertext : BackupCiphertext) (shares : List Bytes),
      createBackup cb gcm rng kp threshold shareCount label = .ok (ciphertext, shares) →
      ∃ (seed : Bytes) (secret : Int) (drawn : ℕ → Scalar),
        cb.genBn (cb.drbg seed) secp256k1Order = (secret, drawn) ∧
        shares = backupShares cb secret threshold shareCount drawn) ∧
    ∀ (known : Finset (Fin shareCount)) (values : Fin shareCount → Bytes) (secret secret' : Scalar),
      known.card ≤ threshold.toNat - 1 →
      Nat.card {c : Fin (threshold.toNat - 1) → Scalar // ∀ i ∈ known,
          (backupShares cb secret.val threshold shareCount (drawing c))[i.val]? =
            some (values i)} =
        Nat.card {c : Fin (threshold.toNat - 1) → Scalar // ∀ i ∈ known,
          (backupShares cb secret'.val threshold shareCount (drawing c))[i.val]? =
            some (values i)} := by
  refine ⟨?_, ?_⟩
  · intro gcm rng kp label ciphertext shares created
    obtain ⟨seed, _, _, secret, drawn, _, _, generated, _, _, _, rfl⟩ :=
      createBackup_eq_ok created
    exact ⟨seed, secret, drawn, generated, rfl⟩
  · intro known values secret secret' few
    have share (s : Scalar) (c : Fin (threshold.toNat - 1) → Scalar) (i : Fin shareCount) :
        (backupShares cb s.val threshold shareCount (drawing c))[i.val]? =
          some (dealtShare cb (Sharing.deal s c) i) := by
      rw [backupShares_drawing deals s pos le fits c]
      simp
    simp only [share]
    refine Sharing.card_observed_eq secret secret'
      (known.image fun i : Fin shareCount => ((i.val + 1 : ℕ) : Scalar)) ?_ ?_
      (fun dealt => ∀ i ∈ known, some (dealtShare cb dealt i) = some (values i)) ?_
    · exact Finset.card_image_le.trans few
    · intro zero
      obtain ⟨i, _, vanishes⟩ := Finset.mem_image.mp zero
      exact index_ne_zero fits i vanishes
    · intro f g same
      have shares (i : Fin shareCount) (mem : i ∈ known) :
          dealtShare cb f i = dealtShare cb g i := by
        rw [dealtShare, dealtShare, same _ (Finset.mem_image_of_mem _ mem)]
      constructor
      · intro observed i mem
        rw [← shares i mem, observed i mem]
      · intro observed i mem
        rw [shares i mem, observed i mem]

/-- The sample functions, with the coefficients from the generator. -/
def drawingCb : CbMpc Unit Unit (ℕ → Scalar) where
  converter := sampleConverter
  drbg seed i := (BigEndian.decode seed : Scalar) + i
  genBn drawn _ := ((drawn 0).val, fun i => drawn (i + 1))
  toBin := sampleCb.toBin
  fromBin := sampleCb.fromBin
  shareThreshold _ secret threshold _ pids drawn := pids.map fun pid : Int =>
    ((Sharing.deal (secret : Scalar) (fun i : Fin (threshold.toNat - 1) => drawn i)
      (pid : Scalar)).val : Int)
  lagrangeInterpolate := sampleCb.lagrangeInterpolate

theorem drawingCb_dealsDrawn : drawingCb.DealsDrawn :=
  fun _ _ _ _ _ _ _ _ => rfl

/-- One share of two-of-three. -/
theorem backup_shares_hide_secret_two_of_three :
    Nat.card {c : Fin 1 → Scalar // ∀ i ∈ ({0} : Finset (Fin 3)),
        (backupShares drawingCb (5 : Scalar).val 2 3 (drawing c))[i.val]? =
          some (encodeShare drawingCb 1 9 scalarSize)} =
      Nat.card {c : Fin 1 → Scalar // ∀ i ∈ ({0} : Finset (Fin 3)),
        (backupShares drawingCb (7 : Scalar).val 2 3 (drawing c))[i.val]? =
          some (encodeShare drawingCb 1 9 scalarSize)} :=
  (backup_shares_hide_secret drawingCb_dealsDrawn (show 1 ≤ (2 : UInt32).toNat by decide)
    (show _ ≤ 3 by decide) (by decide)).2 {0} (fun _ => encodeShare drawingCb 1 9 scalarSize) 5 7
    (by decide)

end MaanyMpc
