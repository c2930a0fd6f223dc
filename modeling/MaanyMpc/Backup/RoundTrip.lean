import MaanyMpc.Backup.Backup
import MaanyMpc.Library.Fallible

/-! # Backup and restore

Any threshold of distinct shares restores the keypair: the shares are points of one
polynomial, their pids stay distinct modulo the order, and the interpolated secret is the
key that the payload was encrypted with. -/

namespace MaanyMpc

open Polynomial

variable {Point Paillier Drbg : Type} {cb : CbMpc Point Paillier Drbg}

/-! ## One share -/

theorem order_lt_scalars : (secp256k1Order : Int) < 256 ^ scalarSize := by
  decide

theorem CbMpc.Lawful.fromBin_toBin (h : cb.Lawful) {size : Nat} {value : Int}
    (nonneg : 0 ≤ value) (fits : value < 256 ^ size) :
    cb.fromBin (cb.toBin size value).toList = value := by
  have bound : value.toNat < 256 ^ size := by
    zify
    rwa [Int.toNat_of_nonneg nonneg]
  rw [h.fromBin, h.toBin size value nonneg fits, BigEndian.decode_encode bound,
    Int.toNat_of_nonneg nonneg]

theorem decodeShare_encodeShare (h : cb.Lawful) {pid value : Int} (pid_nonneg : 0 ≤ pid)
    (pid_lt : pid < 256 ^ scalarSize) (value_nonneg : 0 ≤ value)
    (value_lt : value < 256 ^ scalarSize) :
    decodeShare cb (encodeShare cb pid value scalarSize) scalarSize = .ok (pid, value) := by
  have pidBytes : (cb.toBin scalarSize pid).toList.length = scalarSize := Vector.length_toList
  have valueBytes : (cb.toBin scalarSize value).toList.length = scalarSize :=
    Vector.length_toList
  have size : (encodeShare cb pid value scalarSize).length = 1 + scalarSize * 2 := by
    simp only [encodeShare, List.cons_append, List.length_cons, List.length_append, pidBytes,
      valueBytes]
    omega
  have first : (encodeShare cb pid value scalarSize).head? = some kBackupShareVersion := rfl
  have front : ((encodeShare cb pid value scalarSize).drop 1).take scalarSize =
      (cb.toBin scalarSize pid).toList := by
    change ((cb.toBin scalarSize pid).toList ++ _).take scalarSize = _
    rw [List.take_append_of_le_length (by omega), List.take_of_length_le (by omega)]
  have back : ((encodeShare cb pid value scalarSize).drop (1 + scalarSize)).take scalarSize =
      (cb.toBin scalarSize value).toList := by
    rw [Nat.add_comm 1 scalarSize]
    change (((cb.toBin scalarSize pid).toList ++ _).drop scalarSize).take scalarSize = _
    rw [List.drop_append_of_le_length (by omega), List.drop_of_length_le (by omega),
      List.nil_append, List.take_of_length_le (by omega)]
  rw [decodeShare, if_neg (not_not.mpr size), if_neg (not_not.mpr first), front, back,
    h.fromBin_toBin pid_nonneg pid_lt, h.fromBin_toBin value_nonneg value_lt]

/-! ## The pids -/

theorem staticCastInt_of_lt {n : Nat} (h : n < 2 ^ 31) : staticCastInt n = n := by
  unfold staticCastInt
  rw [Int.bmod_def]
  push_cast
  split_ifs <;> omega

theorem mem_backupPids {shareCount : Nat} (fits : shareCount < 2 ^ 31) {pid : Int}
    (h : pid ∈ backupPids shareCount) : 1 ≤ pid ∧ pid ≤ shareCount := by
  obtain ⟨i, hi, rfl⟩ := List.mem_map.mp h
  have below := List.mem_range.mp hi
  rw [staticCastInt_of_lt (by omega)]
  omega

/-- Numbers in the range of the order that agree modulo the order are equal. -/
theorem eq_of_cast_eq {a b : Int} (ha : 0 ≤ a) (ha' : a < secp256k1Order) (hb : 0 ≤ b)
    (hb' : b < secp256k1Order) (h : (a : Scalar) = b) : a = b := by
  have same := (ZMod.intCast_eq_intCast_iff' a b secp256k1Order).mp h
  rwa [Int.emod_eq_of_lt ha ha', Int.emod_eq_of_lt hb hb'] at same

/-! ## The shares of one backup -/

/-- A point that `CreateBackup` hands out: a pid in range with the value of the polynomial. -/
structure GoodPoint (p : Scalar[X]) (shareCount : Nat) (point : Int × Int) : Prop where
  pid_pos : 1 ≤ point.1
  pid_le : point.1 ≤ shareCount
  value_nonneg : 0 ≤ point.2
  value_lt : point.2 < secp256k1Order
  on : p.eval (point.1 : Scalar) = point.2

def encodePoint (cb : CbMpc Point Paillier Drbg) (point : Int × Int) : Bytes :=
  encodeShare cb point.1 point.2 scalarSize

theorem two_pow_31_lt_order : (2 : Int) ^ 31 < secp256k1Order := by
  decide

theorem GoodPoint.decode (h : cb.Lawful) {p : Scalar[X]} {shareCount : Nat}
    (fits : shareCount < 2 ^ 31) {point : Int × Int} (good : GoodPoint p shareCount point) :
    decodeShare cb (encodePoint cb point) scalarSize = .ok point := by
  have scalars := order_lt_scalars
  have order := two_pow_31_lt_order
  have pos := good.pid_pos
  have le := good.pid_le
  have lt := good.value_lt
  apply decodeShare_encodeShare h
  · omega
  · omega
  · exact good.value_nonneg
  · omega

/-- A good point is known by its pid, also modulo the order. -/
theorem GoodPoint.eq_of_pid {p : Scalar[X]} {shareCount : Nat} (fits : shareCount < 2 ^ 31)
    {a b : Int × Int} (ha : GoodPoint p shareCount a) (hb : GoodPoint p shareCount b)
    (same : (a.1 : Scalar) = b.1) : a = b := by
  have order := two_pow_31_lt_order
  have pos := ha.pid_pos
  have le := ha.pid_le
  have pos' := hb.pid_pos
  have le' := hb.pid_le
  have pid : a.1 = b.1 := by
    apply eq_of_cast_eq _ _ _ _ same <;> omega
  have value : a.2 = b.2 := by
    apply eq_of_cast_eq ha.value_nonneg ha.value_lt hb.value_nonneg hb.value_lt
    rw [← ha.on, ← hb.on, pid]
  exact Prod.ext pid value

theorem exists_of_subset_map {α β : Type*} {f : α → β} {source : List α} {chosen : List β}
    (subset : chosen ⊆ source.map f) : ∃ points ⊆ source, chosen = points.map f := by
  induction chosen with
  | nil => exact ⟨[], List.nil_subset _, rfl⟩
  | cons b chosen ih =>
      obtain ⟨member, rest⟩ := List.cons_subset.mp subset
      obtain ⟨a, ha, rfl⟩ := List.mem_map.mp member
      obtain ⟨points, hpoints, rfl⟩ := ih rest
      exact ⟨a :: points, List.cons_subset.mpr ⟨ha, hpoints⟩, rfl⟩

/-- The shares of a backup are encoded points of one polynomial below the threshold. -/
theorem backupShares_points (h : cb.Lawful) (secret : Int) {threshold : UInt32}
    {shareCount : Nat} (drbg : Drbg) (pos : 1 ≤ threshold.toNat)
    (le : threshold.toNat ≤ shareCount) (fits : shareCount < 2 ^ 31) :
    ∃ (p : Scalar[X]) (points : List (Int × Int)), p.degree < threshold.toNat ∧
      p.eval 0 = secret ∧ points.length = shareCount ∧
      (∀ point ∈ points, GoodPoint p shareCount point) ∧
      backupShares cb secret threshold shareCount drbg = points.map (encodePoint cb) := by
  have castThreshold := staticCastInt_of_lt (show threshold.toNat < 2 ^ 31 by omega)
  have castCount := staticCastInt_of_lt fits
  obtain ⟨p, degree, constant, values⟩ := h.shareThreshold secret
    (staticCastInt threshold.toNat) (staticCastInt shareCount) (backupPids shareCount) drbg
    (by omega) (by omega) (by rw [castCount]; simp [backupPids])
  rw [castThreshold, Int.toNat_natCast] at degree
  refine ⟨p, (backupPids shareCount).zip (cb.shareThreshold secp256k1Order secret
    (staticCastInt threshold.toNat) (staticCastInt shareCount) (backupPids shareCount) drbg),
    degree, constant, ?_, ?_, ?_⟩
  · rw [List.length_zip, ← values.length_eq, Nat.min_self, backupPids, List.length_map,
      List.length_range]
  · intro point mem
    obtain ⟨nonneg, lt, on⟩ := (List.forall₂_iff_zip.mp values).2 mem
    obtain ⟨first, last⟩ := mem_backupPids fits (List.of_mem_zip mem).1
    exact ⟨first, last, nonneg, lt, on⟩
  · rw [backupShares, List.map_zip_eq_zipWith]
    rfl

/-- Enough distinct points of the polynomial interpolate to its secret. -/
theorem lagrangeInterpolate_chosen (h : cb.Lawful) {p : Scalar[X]} {secret : Int}
    {threshold shareCount : Nat} (fits : shareCount < 2 ^ 31) (degree : p.degree < threshold)
    (constant : p.eval 0 = secret) (nonneg : 0 ≤ secret) (lt : secret < secp256k1Order)
    {chosen : List (Int × Int)} (good : ∀ point ∈ chosen, GoodPoint p shareCount point)
    (distinct : chosen.Nodup) (enough : threshold ≤ chosen.length) :
    cb.lagrangeInterpolate 0 (chosen.map Prod.snd) (chosen.map Prod.fst) secp256k1Order =
      secret := by
  have pids : (chosen.map fun point => (point.1 : Scalar)).Nodup :=
    distinct.map_on fun a ha b hb same => (good a ha).eq_of_pid fits (good b hb) same
  obtain ⟨nonneg', lt', value⟩ := h.lagrangeInterpolate chosen pids
  apply eq_of_cast_eq nonneg' lt' nonneg lt
  rw [value]
  have dealt : Sharing.Dealt threshold (secret : Scalar)
      (chosen.map fun point => ((point.1 : Scalar), (point.2 : Scalar))) := by
    refine ⟨p, degree, constant, ?_⟩
    intro point mem
    obtain ⟨a, ha, rfl⟩ := List.mem_map.mp mem
    exact (good a ha).on
  apply dealt.recover (List.Subset.refl _)
  · rw [List.map_map]
    exact pids
  · rwa [List.length_map]

/-! ## The payload -/

theorem ensure_eq_ok {condition : Bool} {code : ErrorCode} {message : String} {u : Unit} :
    ensure condition code message = .ok u ↔ condition = true := by
  cases condition <;> simp [ensure]

theorem updateAad_eq_ok {aad mem : Bytes} :
    updateAad aad = .ok mem ↔ 0 ≤ staticCastInt aad.length ∧ toMem aad = mem := by
  simp only [updateAad, Fallible.bind_eq_ok, ensure_eq_ok, decide_eq_true_eq, pure, Except.pure,
    Except.ok.injEq, exists_and_left, exists_const]

theorem updateAad_of_lt {aad : Bytes} (fits : aad.length < 2 ^ 31) : updateAad aad = .ok aad := by
  rw [updateAad_eq_ok, staticCastInt_of_lt fits, toMem_eq_self_iff.mpr fits]
  exact ⟨Int.natCast_nonneg _, rfl⟩

/-- What a payload consists of. -/
theorem aesGcmEncrypt_eq_ok {gcm : AesGcm} {key nonce aad plaintext payload : Bytes}
    (h : aesGcmEncrypt gcm key nonce aad plaintext = .ok payload) :
    key.length = 32 ∧ nonce.length = kBackupNonceSize ∧ updateAad aad = .ok (toMem aad) ∧
      ∃ ciphertext tag, gcm.encrypt key nonce (toMem aad) plaintext = .ok (ciphertext, tag) ∧
      payload = nonce ++ tag.toList ++ ciphertext.toList := by
  simp only [aesGcmEncrypt, Fallible.bind_eq_ok, ensure_eq_ok, beq_iff_eq] at h
  obtain ⟨_, key32, _, nonce12, mem, updated, ⟨ciphertext, tag⟩, encrypted, result⟩ := h
  obtain rfl := (updateAad_eq_ok.mp updated).2
  exact ⟨key32, nonce12, updated, ciphertext, tag, encrypted, (Except.ok.inj result).symm⟩

theorem payload_parts {nonce tag : Bytes} (hnonce : nonce.length = kBackupNonceSize)
    (htag : tag.length = kBackupTagSize) (ciphertext : Bytes) :
    (nonce ++ tag ++ ciphertext).take kBackupNonceSize = nonce ∧
      ((nonce ++ tag ++ ciphertext).drop kBackupNonceSize).take kBackupTagSize = tag ∧
      (nonce ++ tag ++ ciphertext).drop (kBackupNonceSize + kBackupTagSize) = ciphertext := by
  rw [← hnonce, ← htag]
  refine ⟨by simp, by simp, ?_⟩
  rw [← List.length_append, List.drop_left]

/-- A payload decrypts to what was encrypted, unless that was nothing. -/
theorem aesGcmDecrypt_payload {gcm : AesGcm} (h : gcm.Lawful) {key nonce aad plaintext : Bytes}
    {ciphertext : Vector UInt8 plaintext.length} {tag : Vector UInt8 kBackupTagSize}
    (key32 : key.length = 32) (nonempty : plaintext ≠ [])
    (updated : updateAad aad = .ok (toMem aad))
    (encrypted : gcm.encrypt key nonce (toMem aad) plaintext = .ok (ciphertext, tag)) :
    aesGcmDecrypt gcm key aad nonce tag.toList ciphertext.toList = .ok plaintext := by
  have decrypted := h key nonce (toMem aad) plaintext ciphertext tag encrypted
  have some : ciphertext.toList ≠ [] := by
    intro none
    have size : ciphertext.toList.length = plaintext.length := Vector.length_toList
    rw [none] at size
    exact nonempty (List.eq_nil_of_length_eq_zero size.symm)
  cases hd : gcm.decrypt key nonce (toMem aad) tag.toList ciphertext.toList with
  | error err => simp [hd, Except.map] at decrypted
  | ok opened =>
      have same : opened.toList = plaintext := by simpa [hd, Except.map] using decrypted
      simp only [aesGcmDecrypt, Fallible.bind_eq_ok, ensure_eq_ok, beq_iff_eq]
      exact ⟨(), key32, _, updated, opened, hd, by rw [if_neg some, same]; rfl⟩

/-! ## The whole round trip -/

theorem checkBackupArguments_eq_ok {threshold : UInt32} {shareCount : Nat} {u : Unit}
    (h : checkBackupArguments threshold shareCount = .ok u) :
    1 ≤ threshold.toNat ∧ threshold.toNat ≤ shareCount := by
  unfold checkBackupArguments at h
  split_ifs at h with small few
  exact ⟨threshold_not_lt_one.mp small, Nat.not_lt.mp few⟩

/-- What `CreateBackup` has computed when it returns. -/
theorem createBackup_eq_ok {gcm : AesGcm} {rng : Rng} {kp : Keypair Point Paillier}
    {threshold : UInt32} {shareCount : Nat} {label : Bytes} {ciphertext : BackupCiphertext}
    {shares : List Bytes}
    (h : createBackup cb gcm rng kp threshold shareCount label = .ok (ciphertext, shares)) :
    ∃ (seed nonce blob : Bytes) (secret : Int) (drbg : Drbg),
      checkBackupArguments threshold shareCount = .ok () ∧
      exportKey cb.converter kp = .ok blob ∧
      cb.genBn (cb.drbg seed) secp256k1Order = (secret, drbg) ∧
      aesGcmEncrypt gcm (cb.toBin scalarSize secret).toList nonce label blob =
        .ok ciphertext.payload ∧
      ciphertext.threshold = threshold ∧ ciphertext.label = label ∧
      shares = backupShares cb secret threshold shareCount drbg := by
  simp only [createBackup, Fallible.bind_eq_ok] at h
  obtain ⟨_, checked, blob, exported, seed, _, nonce, _, payload, encrypted, result⟩ := h
  obtain ⟨rfl, rfl⟩ := Prod.mk.inj (Except.ok.inj result)
  exact ⟨seed.toList, nonce.toList, blob, _, _, checked, exported, rfl, encrypted, rfl, rfl, rfl⟩

theorem checkBackupArguments_of_le {threshold : UInt32} {shareCount : Nat}
    (pos : 1 ≤ threshold.toNat) (le : threshold.toNat ≤ shareCount) :
    checkBackupArguments threshold shareCount = .ok () := by
  rw [checkBackupArguments, if_neg (threshold_not_lt_one.mpr pos), if_neg (by omega),
    if_neg (by omega)]

/-- Within the checked arguments `CreateBackup` returns, unless the key cannot be written or the
random source or the cipher fails. -/
theorem createBackup_of_checked {gcm : AesGcm} {rng : Rng} {kp : Keypair Point Paillier}
    {threshold : UInt32} {shareCount : Nat} {label blob : Bytes} {seed : Vector UInt8 32}
    {nonce : Vector UInt8 kBackupNonceSize}
    (checked : checkBackupArguments threshold shareCount = .ok ())
    (exported : exportKey cb.converter kp = .ok blob) (seeded : randomBytes rng 0 32 = .ok seed)
    (drawn : randomBytes rng 1 kBackupNonceSize = .ok nonce) (short : label.length < 2 ^ 31)
    (encrypts : ∀ key : Bytes, key.length = 32 →
      ∃ sealed, gcm.encrypt key nonce.toList label blob = .ok sealed) :
    ∃ ciphertext, createBackup cb gcm rng kp threshold shareCount label = .ok (ciphertext,
      backupShares cb (cb.genBn (cb.drbg seed.toList) secp256k1Order).1 threshold shareCount
        (cb.genBn (cb.drbg seed.toList) secp256k1Order).2) := by
  have key32 : (cb.toBin scalarSize (cb.genBn (cb.drbg seed.toList) secp256k1Order).1).toList.length
      = 32 := Vector.length_toList
  have nonce12 : nonce.toList.length = kBackupNonceSize := Vector.length_toList
  obtain ⟨⟨ciphertext, tag⟩, sealed⟩ := encrypts _ key32
  refine ⟨{ kind := kp.kind, scheme := kp.scheme, curve := kp.curve, keyId := kp.keyId, threshold,
            shareCount := UInt32.ofNat shareCount, label,
            payload := nonce.toList ++ tag.toList ++ ciphertext.toList }, ?_⟩
  simp only [createBackup, aesGcmEncrypt, Fallible.bind_eq_ok, ensure_eq_ok, beq_iff_eq]
  exact ⟨(), checked, blob, exported, seed, seeded, nonce, drawn, _,
    ⟨(), key32, (), nonce12, label, updateAad_of_lt short, _, sealed, rfl⟩, rfl⟩

/-- Within the checked arguments `CreateBackup` returns as many shares as it was asked for. -/
theorem createBackup_returns (h : cb.Lawful) {gcm : AesGcm} {rng : Rng}
    {kp : Keypair Point Paillier} {threshold : UInt32} {shareCount : Nat} {label blob : Bytes}
    {seed : Vector UInt8 32} {nonce : Vector UInt8 kBackupNonceSize}
    (pos : 1 ≤ threshold.toNat) (le : threshold.toNat ≤ shareCount) (fits : shareCount < 2 ^ 31)
    (exported : exportKey cb.converter kp = .ok blob) (seeded : randomBytes rng 0 32 = .ok seed)
    (drawn : randomBytes rng 1 kBackupNonceSize = .ok nonce) (short : label.length < 2 ^ 31)
    (encrypts : ∀ key : Bytes, key.length = 32 →
      ∃ sealed, gcm.encrypt key nonce.toList label blob = .ok sealed) :
    ∃ ciphertext shares,
      createBackup cb gcm rng kp threshold shareCount label = .ok (ciphertext, shares) ∧
      shares.length = shareCount := by
  obtain ⟨ciphertext, created⟩ := createBackup_of_checked
    (checkBackupArguments_of_le pos le) exported seeded drawn short encrypts
  obtain ⟨p, points, _, _, count, _, dealt⟩ := backupShares_points h
    (cb.genBn (cb.drbg seed.toList) secp256k1Order).1
    (cb.genBn (cb.drbg seed.toList) secp256k1Order).2 pos le fits
  exact ⟨ciphertext, _, created, by rw [dealt, List.length_map, count]⟩

/-- Shares that were chosen from a backup decode to good points of its polynomial. -/
theorem restorePoints_chosen (h : cb.Lawful) {p : Scalar[X]} {shareCount : Nat}
    (fits : shareCount < 2 ^ 31) {ciphertext : BackupCiphertext} {chosen : List (Int × Int)}
    (good : ∀ point ∈ chosen, GoodPoint p shareCount point)
    (pos : 1 ≤ ciphertext.threshold.toNat) (enough : ciphertext.threshold.toNat ≤ chosen.length) :
    restorePoints cb ciphertext (chosen.map (encodePoint cb)) = .ok chosen := by
  have sufficient : ciphertext.threshold.toNat ≤ (chosen.map (encodePoint cb)).length := by
    rwa [List.length_map]
  rw [restorePoints_threshold pos sufficient]
  have decoded : chosen.mapM ((fun share => decodeShare cb share scalarSize) ∘ encodePoint cb) =
      .ok (chosen.map id) :=
    Fallible.mapM_eq_map fun point mem => (good point mem).decode h fits
  rw [List.mapM_map, decoded, List.map_id]

/-- Any threshold of distinct shares of a backup restores the keypair. -/
theorem backup_round_trip (h : cb.Lawful) {gcm : AesGcm} (hgcm : gcm.Lawful) {rng : Rng}
    {kp : Keypair Point Paillier} {threshold : UInt32} {shareCount : Nat} {label : Bytes}
    {ciphertext : BackupCiphertext} {shares chosen : List Bytes}
    (created : createBackup cb gcm rng kp threshold shareCount label = .ok (ciphertext, shares))
    (fits : shareCount < 2 ^ 31) (subset : chosen ⊆ shares) (distinct : chosen.Nodup)
    (enough : threshold.toNat ≤ chosen.length) :
    restoreBackup cb gcm ciphertext chosen = .ok kp := by
  obtain ⟨seed, nonce, blob, secret, drbg, checked, exported, drawn, encrypted, rfl, rfl, rfl⟩ :=
    createBackup_eq_ok created
  obtain ⟨pos, le⟩ := checkBackupArguments_eq_ok checked
  obtain ⟨p, points, degree, constant, _, good, dealt⟩ :=
    backupShares_points h secret drbg pos le fits
  have range := h.genBn (cb.drbg seed)
  rw [drawn] at range
  -- the chosen shares are encodings of distinct good points
  rw [dealt] at subset
  obtain ⟨taken, inside, rfl⟩ := exists_of_subset_map subset
  have goodTaken : ∀ point ∈ taken, GoodPoint p shareCount point :=
    fun point mem => good point (inside mem)
  have distinctTaken : taken.Nodup := distinct.of_map
  rw [List.length_map] at enough
  have decoded := restorePoints_chosen h fits goodTaken pos enough
  have recovered := lagrangeInterpolate_chosen h fits degree constant range.1 range.2 goodTaken
    distinctTaken enough
  -- the interpolated secret opens the payload
  obtain ⟨key32, nonce12, updated, encryptedBlob, tag, sealed, payload⟩ :=
    aesGcmEncrypt_eq_ok encrypted
  have tagSize : tag.toList.length = kBackupTagSize := Vector.length_toList
  obtain ⟨nonceBytes, tagBytes, cipherBytes⟩ :=
    payload_parts nonce12 tagSize encryptedBlob.toList
  rw [← payload] at nonceBytes tagBytes cipherBytes
  have long : ¬ ciphertext.payload.length < kBackupNonceSize + kBackupTagSize := by
    rw [payload, List.length_append, List.length_append, nonce12, tagSize]
    omega
  have nonempty : blob ≠ [] := exportKey_ne_nil h.converter exported
  have opened := aesGcmDecrypt_payload hgcm key32 nonempty updated sealed
  have imported := importKey_exportKey h.converter exported
  simp only [restoreBackup, bind, Except.bind, decoded, recovered, if_neg long, nonceBytes,
    tagBytes, cipherBytes, opened, imported]

/-! ## Two shares of three -/

def sampleConverter : Converter Unit Unit where
  u32 := (Codec.fixed 4).via (fun value => some (BigEndian.vector 4 value.toNat))
    fun bytes => UInt32.ofNat (BigEndian.decode bytes.toList)
  keyId := (Codec.fixed 32).via (fun keyId => some keyId.bytes) KeyId.mk
  curve := Codec.unit.via (fun curve => if curve = .secp256k1 then some () else none)
    fun _ => .secp256k1
  point := Codec.unit
  bn := (Codec.fixed 32).via
    (fun value =>
      if 0 ≤ value ∧ value < 256 ^ 32 then some (BigEndian.vector 32 value.toNat) else none)
    fun bytes => BigEndian.decode bytes.toList
  paillier := Codec.unit

theorem sampleConverter_lawful : sampleConverter.Lawful where
  u32 := by
    dsimp only [sampleConverter]
    apply (Codec.fixed_roundTrips 4).via
    rintro value _ ⟨rfl⟩
    have fits : value.toNat < 256 ^ 4 := value.toNat_lt
    rw [BigEndian.toList_vector, BigEndian.decode_encode fits, UInt32.ofNat_toNat]
  u32_length := by
    intro value bytes written
    obtain rfl : (BigEndian.vector 4 value.toNat).toList = bytes := by
      simpa [sampleConverter, Codec.via, Codec.fixed] using written
    simp
  keyId := by
    apply (Codec.fixed_roundTrips 32).via
    rintro keyId _ ⟨rfl⟩
    rfl
  curve := by
    dsimp only [sampleConverter]
    apply Codec.unit_roundTrips.via
    intro curve _ stored
    split_ifs at stored with secp256k1
    exact secp256k1.symm
  point := Codec.unit_roundTrips
  bn := by
    dsimp only [sampleConverter]
    apply (Codec.fixed_roundTrips 32).via
    intro value raw stored
    split_ifs at stored with range
    obtain rfl : BigEndian.vector 32 value.toNat = raw := Option.some.inj stored
    have fits : value.toNat < 256 ^ 32 := by
      zify
      rw [Int.toNat_of_nonneg range.1]
      exact range.2
    rw [BigEndian.toList_vector, BigEndian.decode_encode fits, Int.toNat_of_nonneg range.1]
  paillier := Codec.unit_roundTrips

/-- Shares on a line, or on a constant where the threshold asks for one share. -/
def sampleCb : CbMpc Unit Unit Int where
  converter := sampleConverter
  drbg seed := BigEndian.decode seed
  genBn drbg q := (drbg % q, drbg + 1)
  toBin size value := BigEndian.vector size value.toNat
  fromBin bytes := BigEndian.decode bytes
  shareThreshold q secret threshold _ pids drbg :=
    pids.map fun pid => (secret + (if 2 ≤ threshold then drbg else 0) * pid) % q
  lagrangeInterpolate x values pids _ :=
    (Sharing.interpolateAt (x : Scalar)
      (List.zipWith (fun pid value : Int => ((pid : Scalar), (value : Scalar))) pids values)).val

theorem emod_order (value : Int) :
    0 ≤ value % secp256k1Order ∧ value % secp256k1Order < secp256k1Order := by
  have pos : (0 : Int) < secp256k1Order := by decide
  exact ⟨Int.emod_nonneg _ pos.ne', Int.emod_lt_of_pos _ pos⟩

theorem sampleCb_lawful : sampleCb.Lawful where
  converter := sampleConverter_lawful
  genBn drbg := emod_order drbg
  toBin _ _ _ _ := rfl
  fromBin _ := rfl
  shareThreshold := by
    intro secret threshold n pids drbg pos _ _
    have low : (if 2 ≤ threshold then drbg else 0) = 0 ∨ 2 ≤ threshold := by
      by_cases line : 2 ≤ threshold
      · exact .inr line
      · exact .inl (if_neg line)
    refine ⟨C ((if 2 ≤ threshold then drbg else 0 : Int) : Scalar) * X + C (secret : Scalar),
      ?_, by simp, ?_⟩
    · rcases low with constant | line
      · rw [constant, Int.cast_zero, C_0, zero_mul, zero_add]
        refine degree_C_le.trans_lt ?_
        exact_mod_cast (by omega : 0 < threshold.toNat)
      · refine degree_linear_le.trans_lt ?_
        exact_mod_cast (by omega : 1 < threshold.toNat)
    · refine List.forall₂_map_right_iff.mpr (List.forall₂_same.mpr ?_)
      intro pid _
      obtain ⟨nonneg, lt⟩ := emod_order (secret + (if 2 ≤ threshold then drbg else 0) * pid)
      refine ⟨nonneg, lt, ?_⟩
      rw [ZMod.intCast_mod]
      push_cast
      simp only [eval_add, eval_mul, eval_C, eval_X]
      ring
  lagrangeInterpolate := by
    intro points _
    have pairs : List.zipWith (fun pid value : Int => ((pid : Scalar), (value : Scalar)))
        (points.map Prod.fst) (points.map Prod.snd) =
        points.map fun point => ((point.1 : Scalar), (point.2 : Scalar)) := by
      simp [List.zipWith_map]
    simp only [sampleCb, pairs, Int.cast_zero]
    refine ⟨Int.natCast_nonneg _, ?_, by simp⟩
    exact_mod_cast ZMod.val_lt _

/-- A cipher that only authenticates: the tag depends on the key. -/
def sampleGcm : AesGcm where
  encrypt key _ _ plaintext :=
    .ok (⟨plaintext.toArray, by simp⟩, BigEndian.vector kBackupTagSize (BigEndian.decode key))
  decrypt key _ _ tag ciphertext :=
    if tag = BigEndian.encode kBackupTagSize (BigEndian.decode key) then
      .ok ⟨ciphertext.toArray, by simp⟩
    else .error ⟨.crypto, "aes gcm final failed"⟩

theorem sampleGcm_lawful : sampleGcm.Lawful := by
  rintro key nonce aad plaintext _ _ ⟨rfl⟩
  simp [sampleGcm, Except.map]

def sampleKeypair : Keypair Unit Unit where
  kind := .device
  scheme := .ecdsa2p
  curve := .secp256k1
  keyId := ⟨Vector.replicate 32 3⟩
  key := ⟨.p1, .secp256k1, (), 7, 11, ()⟩
  role_eq := rfl
  curve_eq := rfl

def sampleRng : Rng where
  callback := some fun call len => (0, Vector.replicate len (UInt8.ofNat (call + 1)))
  randBytes _ len := (1, Vector.replicate len 0)

theorem backup_round_trip_two_of_three : ∃ ciphertext shares,
    createBackup sampleCb sampleGcm sampleRng sampleKeypair 2 3 [1] = .ok (ciphertext, shares) ∧
    shares.length = 3 ∧
    restoreBackup sampleCb sampleGcm ciphertext (shares.drop 1).reverse = .ok sampleKeypair := by
  have created : createBackup sampleCb sampleGcm sampleRng sampleKeypair 2 3 [1] = .ok (_, _) :=
    rfl
  refine ⟨_, _, created, by decide +kernel, ?_⟩
  apply backup_round_trip sampleCb_lawful sampleGcm_lawful created (by decide)
  · intro share mem
    exact List.mem_of_mem_drop (List.mem_reverse.mp mem)
  · decide +kernel
  · decide +kernel

end MaanyMpc
