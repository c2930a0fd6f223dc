import MaanyMpc.Bridge.Keypair
import MaanyMpc.Library.Codec

/-! # Key blobs

`ExportKey` and `ImportKey`. A blob is what `KeyBlob::convert` writes, field after field.
Buffers are shorter than 2^31 bytes here, so that the conversion of a length to `int` does
not change it. -/

namespace MaanyMpc

variable {Point Paillier : Type}

def kKeyBlobMagic : UInt32 := 0x4D50434B
def kKeyBlobVersion : UInt32 := 1

structure KeyBlob (Point Paillier : Type) where
  magic : UInt32
  version : UInt32
  scheme : UInt32
  kind : UInt32
  keyId : KeyId
  curve : EcCurve
  Q : Point
  xShare : Int
  cKey : Int
  paillier : Paillier

/-- `coinbase::converter_t` on the field types of a blob. -/
structure Converter (Point Paillier : Type) where
  u32 : Codec UInt32
  keyId : Codec KeyId
  curve : Codec EcCurve
  point : Codec Point
  bn : Codec Int
  paillier : Codec Paillier

/-- The converter writes a `uint32_t` in four bytes and reads back what it has written. -/
structure Converter.Lawful (conv : Converter Point Paillier) : Prop where
  u32 : conv.u32.RoundTrips
  u32_length : ∀ value bytes, conv.u32.write value = some bytes → bytes.length = 4
  keyId : conv.keyId.RoundTrips
  curve : conv.curve.RoundTrips
  point : conv.point.RoundTrips
  bn : conv.bn.RoundTrips
  paillier : conv.paillier.RoundTrips

/-- The fields in the order of `convert`. -/
def KeyBlob.fields : UInt32 × UInt32 × UInt32 × UInt32 × KeyId × EcCurve × Point × Int × Int ×
    Paillier ≃ KeyBlob Point Paillier where
  toFun | (magic, version, scheme, kind, keyId, curve, Q, xShare, cKey, paillier) =>
          { magic, version, scheme, kind, keyId, curve, Q, xShare, cKey, paillier }
  invFun blob := (blob.magic, blob.version, blob.scheme, blob.kind, blob.keyId, blob.curve,
    blob.Q, blob.xShare, blob.cKey, blob.paillier)
  left_inv _ := rfl
  right_inv _ := rfl

/-- `KeyBlob::convert`, which writes or reads as the converter does. -/
def KeyBlob.convert (conv : Converter Point Paillier) : Codec (KeyBlob Point Paillier) :=
  (conv.u32.seq <| conv.u32.seq <| conv.u32.seq <| conv.u32.seq <| conv.keyId.seq <|
    conv.curve.seq <| conv.point.seq <| conv.bn.seq <| conv.bn.seq conv.paillier).map
      KeyBlob.fields

theorem KeyBlob.convert_roundTrips {conv : Converter Point Paillier} (h : conv.Lawful) :
    (KeyBlob.convert conv).RoundTrips :=
  (h.u32.seq <| h.u32.seq <| h.u32.seq <| h.u32.seq <| h.keyId.seq <| h.curve.seq <|
    h.point.seq <| h.bn.seq <| h.bn.seq h.paillier).map KeyBlob.fields

theorem KeyBlob.convert_ne_nil {conv : Converter Point Paillier} (h : conv.Lawful)
    {blob : KeyBlob Point Paillier} {bytes : Bytes}
    (written : (KeyBlob.convert conv).write blob = some bytes) : bytes ≠ [] := by
  obtain ⟨first, hfirst, le⟩ := Codec.length_le_of_seq_write written
  have four := h.u32_length _ first hfirst
  rintro rfl
  rw [four] at le
  cases le

def Keypair.blob (kp : Keypair Point Paillier) : KeyBlob Point Paillier where
  magic := kKeyBlobMagic
  version := kKeyBlobVersion
  scheme := kp.scheme.toUInt32
  kind := kp.kind.toUInt32
  keyId := kp.keyId
  curve := kp.key.curve
  Q := kp.key.Q
  xShare := kp.key.xShare
  cKey := kp.key.cKey
  paillier := kp.key.paillier

def exportKey (conv : Converter Point Paillier) (kp : Keypair Point Paillier) :
    Except Error Bytes :=
  match (KeyBlob.convert conv).write kp.blob with
  | none => .error ⟨.general, "failed to serialize key"⟩
  | some bytes => .ok bytes

/-- Bytes after the last field are not looked at. -/
def importKey (conv : Converter Point Paillier) (blob : Bytes) :
    Except Error (Keypair Point Paillier) :=
  match (KeyBlob.convert conv).read blob with
  | none => .error ⟨.invalidArgument, "invalid key blob"⟩
  | some (stored, _) =>
    if stored.magic ≠ kKeyBlobMagic ∨ stored.version ≠ kKeyBlobVersion then
      .error ⟨.invalidArgument, "unsupported key blob version"⟩
    else
      match curve_eq : fromCbCurve stored.curve with
      | .error err => .error err
      | .ok curve =>
        match role_eq : toParty (.ofUInt32 stored.kind) with
        | .error err => .error err
        | .ok role =>
          .ok { kind := .ofUInt32 stored.kind
                scheme := .ofUInt32 stored.scheme
                curve
                keyId := stored.keyId
                key := { role, curve := stored.curve, Q := stored.Q, xShare := stored.xShare,
                         cKey := stored.cKey, paillier := stored.paillier }
                role_eq
                curve_eq }

theorem write_of_exportKey {conv : Converter Point Paillier} {kp : Keypair Point Paillier}
    {bytes : Bytes} (exported : exportKey conv kp = .ok bytes) :
    (KeyBlob.convert conv).write kp.blob = some bytes := by
  cases hw : (KeyBlob.convert conv).write kp.blob with
  | none => simp [exportKey, hw] at exported
  | some written => simpa [exportKey, hw] using exported

theorem exportKey_ne_nil {conv : Converter Point Paillier} (h : conv.Lawful)
    {kp : Keypair Point Paillier} {bytes : Bytes} (exported : exportKey conv kp = .ok bytes) :
    bytes ≠ [] :=
  KeyBlob.convert_ne_nil h (write_of_exportKey exported)

/-- An exported keypair is imported unchanged. -/
theorem importKey_exportKey {conv : Converter Point Paillier} (h : conv.Lawful)
    {kp : Keypair Point Paillier} {bytes : Bytes} (exported : exportKey conv kp = .ok bytes) :
    importKey conv bytes = .ok kp := by
  have stored := KeyBlob.convert_roundTrips h kp.blob bytes [] (write_of_exportKey exported)
  rw [List.append_nil] at stored
  have kind : ShareKind.ofUInt32 kp.blob.kind = kp.kind := ShareKind.ofUInt32_toUInt32 kp.kind
  have scheme : Scheme.ofUInt32 kp.blob.scheme = kp.scheme := Scheme.ofUInt32_toUInt32 kp.scheme
  simp only [importKey, stored]
  rw [if_neg (by simp [Keypair.blob])]
  split
  next err unsupported => simp [Keypair.blob, kp.curve_eq] at unsupported
  next curve supported =>
    split
    next err unknown => simp [kind, kp.role_eq] at unknown
    next role known =>
      have sameCurve : kp.curve = curve := by
        simpa [Keypair.blob, kp.curve_eq] using supported
      have sameRole : kp.key.role = role := by simpa [kind, kp.role_eq] using known
      subst sameCurve sameRole
      congr 1
      ext1
      · exact kind
      · exact scheme
      · rfl
      · rfl
      · rfl

end MaanyMpc
