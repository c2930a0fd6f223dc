import MaanyMpc.Backup.Reached

/-! # Which blobs are imported

`ImportKey` reads the ten fields and leaves what follows them alone; and it casts the scheme as
it is. -/

namespace MaanyMpc

variable {Point Paillier : Type}

/-! ## Numbers of the enumerations -/

theorem Scheme.toUInt32_ofUInt32 (raw : UInt32) : (Scheme.ofUInt32 raw).toUInt32 = raw := by
  unfold Scheme.ofUInt32
  split_ifs with undeclared first second
  · rfl
  · exact first.symm
  · exact second.symm
  · change 2 = raw
    rw [UInt32.lt_iff_toNat_lt] at undeclared
    rw [← UInt32.toNat_inj] at first second ⊢
    simp at *
    omega

theorem ShareKind.toUInt32_ofUInt32 (raw : UInt32) : (ShareKind.ofUInt32 raw).toUInt32 = raw := by
  unfold ShareKind.ofUInt32
  split_ifs with undeclared first
  · rfl
  · exact first.symm
  · change 1 = raw
    rw [UInt32.lt_iff_toNat_lt] at undeclared
    rw [← UInt32.toNat_inj] at first ⊢
    simp at *
    omega

def Scheme.Declared (scheme : Scheme) : Prop :=
  scheme = .ecdsa2p ∨ scheme = .ecdsaThresholdN ∨ scheme = .schnorr2p

def ShareKind.Declared (kind : ShareKind) : Prop := kind = .device ∨ kind = .server

theorem Scheme.ofUInt32_declared_iff (raw : UInt32) :
    (Scheme.ofUInt32 raw).Declared ↔ raw ≤ 2 := by
  unfold Scheme.ofUInt32 Scheme.Declared
  split_ifs with undeclared <;> simp_all

theorem ShareKind.ofUInt32_declared_iff (raw : UInt32) :
    (ShareKind.ofUInt32 raw).Declared ↔ raw ≤ 1 := by
  unfold ShareKind.ofUInt32 ShareKind.Declared
  split_ifs with undeclared <;> simp_all

theorem toParty_eq_ok_iff (kind : ShareKind) :
    (∃ role, toParty kind = .ok role) ↔ kind.Declared := by
  cases kind with
  | device => exact iff_of_true ⟨_, rfl⟩ (.inl rfl)
  | server => exact iff_of_true ⟨_, rfl⟩ (.inr rfl)
  | undeclared => simp [toParty, ShareKind.Declared]

theorem toParty_error {kind : ShareKind} {err : Error} (h : toParty kind = .error err) :
    err.code = .invalidArgument := by
  cases kind with
  | undeclared =>
      obtain rfl := Except.error.inj h
      rfl
  | _ => cases h

/-! ## The bytes that are read -/

/-- `ImportKey`, whatever the length. -/
def importBlob (conv : Converter Point Paillier) (blob : Bytes) :
    Except Error (KeypairImpl Point Paillier) :=
  KeypairImpl.importKey conv (toMem blob)

/-- Every field type has one encoding. -/
structure Converter.Unique (conv : Converter Point Paillier) : Prop where
  u32 : conv.u32.Unique
  keyId : conv.keyId.Unique
  curve : conv.curve.Unique
  point : conv.point.Unique
  bn : conv.bn.Unique
  paillier : conv.paillier.Unique

theorem KeyBlob.convert_unique {conv : Converter Point Paillier} (h : conv.Unique) :
    (KeyBlob.convert conv).Unique :=
  (h.u32.seq <| h.u32.seq <| h.u32.seq <| h.u32.seq <| h.keyId.seq <| h.curve.seq <|
    h.point.seq <| h.bn.seq <| h.bn.seq h.paillier).map KeyBlob.fields

/-- The memory starts with a blob that the bridge supports, and this is the rest of it. -/
structure HoldsBlob (conv : Converter Point Paillier) (mem : Bytes)
    (stored : KeyBlob Point Paillier) (rest : Bytes) : Prop where
  read : (KeyBlob.convert conv).read mem = some (stored, rest)
  magic : stored.magic = kKeyBlobMagic
  version : stored.version = kKeyBlobVersion
  curve : stored.curve = .secp256k1
  kind : stored.kind ≤ 1

theorem HoldsBlob.unique {conv : Converter Point Paillier} {mem rest rest' : Bytes}
    {stored stored' : KeyBlob Point Paillier} (h : HoldsBlob conv mem stored rest)
    (read : (KeyBlob.convert conv).read mem = some (stored', rest')) :
    stored = stored' ∧ rest = rest' :=
  Prod.mk.inj (Option.some.inj (h.read.symm.trans read))

theorem importKey_cases (conv : Converter Point Paillier) (mem : Bytes) :
    (∃ stored rest kp, HoldsBlob conv mem stored rest ∧
      KeypairImpl.importKey conv mem = .ok kp ∧ kp.blob = stored) ∨
    (∀ stored rest, ¬ HoldsBlob conv mem stored rest) ∧
      ∃ err, KeypairImpl.importKey conv mem = .error err ∧
        (err.code = .invalidArgument ∨ err.code = .unsupported) := by
  cases read : (KeyBlob.convert conv).read mem with
  | none =>
      refine .inr ⟨fun stored rest holds => ?_, ⟨.invalidArgument, "invalid key blob"⟩, ?_,
        .inl rfl⟩
      · rw [holds.read] at read
        cases read
      · simp only [KeypairImpl.importKey, read]
  | some result =>
      obtain ⟨stored, rest⟩ := result
      simp only [KeypairImpl.importKey, read]
      by_cases version : stored.magic ≠ kKeyBlobMagic ∨ stored.version ≠ kKeyBlobVersion
      · refine .inr ⟨fun stored' rest' holds => ?_,
          ⟨.invalidArgument, "unsupported key blob version"⟩, by rw [if_pos version]; rfl, .inl rfl⟩
        obtain ⟨rfl, rfl⟩ := holds.unique read
        rcases version with magic | version
        · exact magic holds.magic
        · exact version holds.version
      · rw [if_neg version]
        rw [not_or, not_not, not_not] at version
        have declared := (toParty_eq_ok_iff (.ofUInt32 stored.kind)).trans
          (ShareKind.ofUInt32_declared_iff stored.kind)
        by_cases curve : stored.curve = .secp256k1
        · have found : fromCbCurve stored.curve = .ok .secp256k1 := by
            rw [fromCbCurve, if_pos curve]
          rw [found]
          cases known : toParty (.ofUInt32 stored.kind) with
          | ok role =>
              refine .inl ⟨stored, rest, _, ⟨read, version.1, version.2, curve,
                declared.mp ⟨role, known⟩⟩, rfl, ?_⟩
              simp only [KeypairImpl.blob, Scheme.toUInt32_ofUInt32, ShareKind.toUInt32_ofUInt32]
              rw [← version.1, ← version.2]
          | error err =>
              refine .inr ⟨fun stored' rest' holds => ?_, err, rfl, ?_⟩
              · obtain ⟨rfl, rfl⟩ := holds.unique read
                obtain ⟨role, ok⟩ := declared.mpr holds.kind
                rw [known] at ok
                cases ok
              · exact .inl (toParty_error known)
        · have lost : fromCbCurve stored.curve =
              .error ⟨.unsupported, "unsupported curve from cb-mpc"⟩ := by
            rw [fromCbCurve, if_neg curve]
          rw [lost]
          refine .inr ⟨fun stored' rest' holds => ?_, _, rfl, .inr rfl⟩
          obtain ⟨rfl, rfl⟩ := holds.unique read
          exact curve holds.curve

/-- A blob is all of what is read of its memory if it is not cut and nothing is left of it. -/
theorem eq_iff_of_toMem_eq {blob front rest : Bytes} (split : toMem blob = front ++ rest) :
    front = blob ↔ blob.length < 2 ^ 31 ∧ rest = [] := by
  rw [← toMem_eq_self_iff]
  constructor
  · rintro rfl
    have shorter := congrArg List.length split
    have le := length_toMem_le front
    rw [List.length_append] at shorter
    obtain rfl : rest = [] := List.eq_nil_of_length_eq_zero (by omega)
    exact ⟨by rw [split, List.append_nil], rfl⟩
  · rintro ⟨same, rfl⟩
    rw [← same, split, List.append_nil]

/-- An accepted blob is the one that is exported again, with declared numbers in it; and what
is not accepted is refused in one of two ways. -/
def ImportsExactly (conv : Converter Point Paillier) (sizes : Sizes Point Paillier)
    (blob : Bytes) : Prop :=
  (∀ kp, importBlob conv blob = .ok kp →
    kp.exportKey conv sizes = .ok blob ∧ kp.kind.Declared ∧ kp.scheme.Declared) ∧
  ∀ err, importBlob conv blob = .error err →
    err.code = .invalidArgument ∨ err.code = .unsupported

/-- The blobs that are too long: for the size of a memory, or for their fields; and those with
another scheme. -/
theorem imports_exactly_iff {conv : Converter Point Paillier} {sizes : Sizes Point Paillier}
    (unique : conv.Unique) (sized : conv.Sized sizes) (blob : Bytes) :
    ImportsExactly conv sizes blob ↔ ∀ stored rest, HoldsBlob conv (toMem blob) stored rest →
      blob.length < 2 ^ 31 ∧ rest = [] ∧ stored.scheme ≤ 2 := by
  rcases importKey_cases conv (toMem blob) with
    ⟨stored, rest, kp, holds, imported, blob_eq⟩ | ⟨refused, err, imported, code⟩
  · obtain ⟨front, written, split⟩ := KeyBlob.convert_unique unique _ _ _ holds.read
    obtain ⟨bytes, written', exported, _⟩ := KeypairImpl.exportKey_eq_ok sized kp
    rw [blob_eq, written, Option.some.injEq] at written'
    subst written'
    have scheme : kp.scheme.Declared ↔ stored.scheme ≤ 2 := by
      rw [← Scheme.ofUInt32_declared_iff, ← blob_eq, KeypairImpl.blob, Scheme.ofUInt32_toUInt32]
    have kind : kp.kind.Declared := by
      have small := (ShareKind.ofUInt32_declared_iff stored.kind).mpr holds.kind
      rwa [← blob_eq, KeypairImpl.blob, ShareKind.ofUInt32_toUInt32] at small
    have result : ImportsExactly conv sizes blob ↔ front = blob ∧ kp.scheme.Declared := by
      simp only [ImportsExactly, importBlob, imported, Except.ok.injEq, forall_eq', exported, kind,
        true_and, reduceCtorEq, false_implies, implies_true, and_true]
    rw [result, eq_iff_of_toMem_eq split, scheme, and_assoc]
    constructor
    · rintro conditions stored' rest' holds'
      obtain ⟨rfl, rfl⟩ := holds'.unique holds.read
      exact conditions
    · exact fun conditions => conditions stored rest holds
  · refine iff_of_true ⟨fun kp accepted => ?_, fun err' rejected => ?_⟩
      fun stored rest holds => (refused stored rest holds).elim
    · rw [importBlob, imported] at accepted
      cases accepted
    · rw [importBlob, imported] at rejected
      obtain rfl := Except.error.inj rejected
      exact code

/-! ## A blob with a byte too many -/

/-- Numbers of any size, each with one encoding. -/
def strictConverter : Converter Unit Unit where
  u32 := varintConverter.u32.strict
  keyId := varintConverter.keyId.strict
  curve := varintConverter.curve.strict
  point := varintConverter.point.strict
  bn := varintConverter.bn.strict
  paillier := varintConverter.paillier.strict

theorem strictConverter_unique : strictConverter.Unique where
  u32 := Codec.strict_unique _
  keyId := Codec.strict_unique _
  curve := Codec.strict_unique _
  point := Codec.strict_unique _
  bn := Codec.strict_unique _
  paillier := Codec.strict_unique _

theorem strictConverter_sized : strictConverter.Sized varintSizes where
  u32 := varintConverter_sized.u32.strict
  keyId := varintConverter_sized.keyId.strict
  curve := varintConverter_sized.curve.strict
  point := varintConverter_sized.point.strict
  bn := varintConverter_sized.bn.strict
  paillier := varintConverter_sized.paillier.strict

theorem strictConverter_lawful : strictConverter.Lawful where
  u32 := varintConverter_lawful.u32.strict
  u32_length := varintConverter_lawful.u32_length
  keyId := varintConverter_lawful.keyId.strict
  curve := varintConverter_lawful.curve.strict
  point := varintConverter_lawful.point.strict
  bn := varintConverter_lawful.bn.strict
  paillier := varintConverter_lawful.paillier.strict

/-- The bytes of a keypair, and what is read of them with more bytes behind. -/
theorem exists_sampleBlob : ∃ bytes,
    refreshedKeypair.exportKey strictConverter varintSizes = .ok bytes ∧ bytes.length < 100 ∧
      ∀ rest, HoldsBlob strictConverter (bytes ++ rest) refreshedKeypair.blob rest := by
  obtain ⟨bytes, written, exported, length⟩ :=
    KeypairImpl.exportKey_eq_ok strictConverter_sized refreshedKeypair
  refine ⟨bytes, exported, ?_, fun rest => ⟨?_, rfl, rfl, rfl, by decide⟩⟩
  · have small : Equiv.intEquivNat 8 = 16 := by decide
    have zero : Equiv.intEquivNat 0 = 0 := by decide
    have curve : EcCurve.code .secp256k1 = 0 := rfl
    simp only [length, KeyBlob.calc, varintSizes, KeypairImpl.blob, refreshedKeypair, small, zero,
      curve, Codec.length_writeVarint_of_lt (show 16 < 128 by decide),
      Codec.length_writeVarint_of_lt (show 0 < 128 by decide)]
    decide
  · exact KeyBlob.convert_roundTrips strictConverter_lawful _ bytes rest written

theorem trailing_byte_imported : ¬ ∀ blob, ImportsExactly strictConverter varintSizes blob := by
  intro exact
  obtain ⟨bytes, exported, short, holds⟩ := exists_sampleBlob
  have size : toMem (bytes ++ [0]) = bytes ++ [0] := by
    rw [toMem_eq_self_iff, List.length_append, List.length_singleton]
    omega
  rcases importKey_cases strictConverter (toMem (bytes ++ [0])) with
    ⟨stored, rest, kp, held, imported, blob_eq⟩ | ⟨refused, _⟩
  · rw [size] at held
    obtain ⟨rfl, _⟩ := held.unique (holds [0]).read
    have again := ((exact (bytes ++ [0])).1 kp imported).1
    rw [KeypairImpl.exportKey, blob_eq, ← KeypairImpl.exportKey, exported] at again
    have length := congrArg List.length (Except.ok.inj again)
    simp at length
  · rw [size] at refused
    exact refused _ _ (holds [0])

theorem imports_exactly_iff_exported : ∃ bytes,
    refreshedKeypair.exportKey strictConverter varintSizes = .ok bytes ∧
      ImportsExactly strictConverter varintSizes bytes := by
  obtain ⟨bytes, exported, short, holds⟩ := exists_sampleBlob
  refine ⟨bytes, exported,
    (imports_exactly_iff strictConverter_unique strictConverter_sized bytes).mpr ?_⟩
  have size : toMem bytes = bytes := by
    rw [toMem_eq_self_iff]
    omega
  have whole := holds []
  rw [List.append_nil] at whole
  rw [size]
  intro stored rest held
  obtain ⟨rfl, rfl⟩ := held.unique whole.read
  exact ⟨by omega, rfl, by decide⟩

end MaanyMpc
