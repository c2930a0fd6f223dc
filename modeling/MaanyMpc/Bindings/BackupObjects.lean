import MaanyMpc.Backup.Outputs
import MaanyMpc.Bindings.BackupOptions
import MaanyMpc.Lifetimes.Js

/-! # Backups as objects of JavaScript

`backupCreate` writes a backup as an object and an array, and `backupRestore` takes them apart
again. The two bindings write and read the same properties. What either does that is undefined is
`none` here. -/

namespace MaanyMpc

/-- The properties `byteOffset` and `byteLength`. A number has no fraction. -/
inductive JsExtent where
  | missing
  | number (n : ℤ)
  | other

/-- The values of a property of a ciphertext or of an element of its shares. A property that is
missing is undefined, and a number has no fraction. -/
inductive JsField where
  | undefined
  | null
  | string (text : String)
  | number (n : ℤ)
  | uint8Array (bytes : Bytes)
  | arrayBuffer (bytes : Bytes)
  /-- anything else with a property `buffer`, which is an `ArrayBuffer` or is not -/
  | view (buffer : Option Bytes) (byteOffset byteLength : JsExtent)
  | other

structure JsCiphertext where
  kind : JsField
  curve : JsField
  scheme : JsField
  keyId : JsField
  threshold : JsField
  shareCount : JsField
  label : JsField
  blob : JsField

/-- What is passed to `backupRestore`, where no function is: no ciphertext if it is not an object,
and no shares if they are not an array. -/
structure JsBackup where
  ciphertext : Option JsCiphertext
  shares : Option (List JsField)

/-- What `maany_mpc_backup_restore` is called with. -/
structure RestoreCall where
  ciphertext : MaanyMpcBackupCiphertext
  shares : List Buf

/-! ## Texts -/

def shareKindToString : ShareKind → String
  | .device => "device"
  | .server => "server"
  | .undeclared .. => "unknown"

def curveToString : Curve → String
  | .secp256k1 => "secp256k1"
  | .ed25519 => "ed25519"
  | .undeclared .. => "unknown"

def schemeToString : Scheme → String
  | .ecdsa2p => "ecdsa-2p"
  | .ecdsaThresholdN => "ecdsa-tn"
  | .schnorr2p => "schnorr-2p"
  | .undeclared .. => "unknown"

/-- The comparisons that both bindings make with a text. -/
def shareKind? (text : String) : Option ShareKind :=
  if text = "device" then some .device else if text = "server" then some .server else none

def curve? (text : String) : Option Curve :=
  if text = "secp256k1" then some .secp256k1
  else if text = "ed25519" then some .ed25519 else none

def scheme? (text : String) : Option Scheme :=
  if text = "ecdsa-2p" then some .ecdsa2p
  else if text = "ecdsa-tn" then some .ecdsaThresholdN
  else if text = "schnorr-2p" then some .schnorr2p else none

/-! ## Writing -/

/-- The bytes of a buffer that has a pointer and a length. -/
def Buf.content : Buf → Bytes
  | .null _ => []
  | .bytes data => data

/-- The object of both bindings: a Buffer is a `Uint8Array`. -/
def writeCiphertext (cipher : MaanyMpcBackupCiphertext) : JsCiphertext where
  kind := .string (shareKindToString cipher.kind)
  curve := .string (curveToString cipher.curve)
  scheme := .string (schemeToString cipher.scheme)
  keyId := .uint8Array cipher.keyId.bytes.toList
  threshold := .number cipher.threshold.toNat
  shareCount := .number cipher.shareCount.toNat
  label := .uint8Array cipher.label.content
  blob := .uint8Array cipher.ciphertext.content

def writeShare (share : Buf) : JsField := .uint8Array share.content

def writeBackupObjects (cipher : MaanyMpcBackupCiphertext) (shares : List Buf) : JsBackup :=
  ⟨some (writeCiphertext cipher), some (shares.map writeShare)⟩

/-! ## The Node addon -/

/-- What the addon calls of N-API. `none` stands for a status other than `napi_ok`, which leaves
the output as it is. -/
structure NapiObjects where
  /-- `napi_get_named_property` and `napi_get_element`, by the value that is there -/
  getProperty : (pending : Bool) → JsField → Option JsField
  getValueString : JsField → Option String
  getValueUint32 : JsField → Option UInt32
  getBuffer : JsField → Option Bytes

/-- A property is not read while an exception is pending. The other functions do not look at
exceptions. -/
structure NapiObjects.Documented (napi : NapiObjects) : Prop where
  property : ∀ value, napi.getProperty false value = some value
  pending : ∀ value, napi.getProperty true value = none
  string : ∀ text, napi.getValueString (.string text) = some text
  not_string : ∀ value, (∀ text, value ≠ .string text) → napi.getValueString value = none
  uint32 : ∀ n : UInt32, napi.getValueUint32 (.number n.toNat) = some n
  not_number : ∀ value, (∀ n, value ≠ .number n) → napi.getValueUint32 value = none
  buffer : ∀ bytes, napi.getBuffer (.uint8Array bytes) = some bytes
  not_buffer : ∀ value, (∀ bytes, value ≠ .uint8Array bytes) → napi.getBuffer value = none

/-- From the exception that is pending, if one is, to a value or a return without one, and to what
is pending then. -/
def NapiM (α : Type) : Type := Option BindingError → Option (Option α × Option BindingError)

instance : Monad NapiM where
  pure a pending := some (some a, pending)
  bind m f pending := (m pending).bind fun r =>
    match r with
    | (none, pending) => some (none, pending)
    | (some a, pending) => f a pending

instance : LawfulMonad NapiM := LawfulMonad.mk' NapiM
  (fun m => by
    funext pending
    change (m pending).bind _ = _
    obtain _ | ⟨_ | a, pending⟩ := m pending <;> rfl)
  (fun a f => rfl)
  (fun m f g => by
    funext pending
    change ((m pending).bind _).bind _ = (m pending).bind _
    obtain _ | ⟨_ | a, pending⟩ := m pending <;> rfl)

namespace JsBackupRestore

variable (napi : NapiObjects)

/-- `napi_throw_type_error` and `napi_throw_range_error`, which do nothing while an exception is
pending. -/
def napiThrow (err : BindingError) : NapiM Unit := fun pending =>
  some (some (), pending.or (some err))

def leave {α : Type} (err : BindingError) : NapiM α := fun pending =>
  some (none, pending.or (some err))

/-- The `napi_value` that a property is read into; it is not written if the status is not
`napi_ok`. -/
def property (value : JsField) : NapiM (Option JsField) := fun pending =>
  some (some (napi.getProperty pending.isSome value), pending)

/-- What has been written there. -/
def written (slot : Option JsField) : NapiM JsField := fun pending =>
  slot.map fun value => (some value, pending)

/-- What `ParseRole`, `CurveFromString` and `SchemeFromString` do. -/
def enumeration {α : Type} (parse : String → Option α) (invalid : α) (message : String)
    (slot : Option JsField) : NapiM α := do
  let value ← written slot
  match parse ((napi.getValueString value).getD "") with
  | some a => return a
  | none =>
    napiThrow (.rangeError message)
    return invalid

/-- `static_cast` of minus one. -/
def shareKindFromString : Option JsField → NapiM ShareKind :=
  enumeration napi shareKind? (.undeclared 0xffffffff (by decide))
    "role must be 'device' or 'server'"

def curveFromString : Option JsField → NapiM Curve :=
  enumeration napi curve? (.undeclared 0xffffffff (by decide)) "unsupported curve value"

def schemeFromString : Option JsField → NapiM Scheme :=
  enumeration napi scheme? (.undeclared 0xffffffff (by decide)) "unsupported scheme value"

def bufferToVector (slot : Option JsField) (label : String) : NapiM Bytes := do
  let value ← written slot
  match napi.getBuffer value with
  | some bytes => return bytes
  | none =>
    napiThrow (.typeError (label ++ " must be a Buffer"))
    return []

/-- The field stays zero if there is no number. -/
def uint32 (slot : Option JsField) : NapiM UInt32 := do
  let value ← written slot
  return (napi.getValueUint32 value).getD 0

def keyId (slot : Option JsField) : NapiM KeyId := do
  let bytes ← bufferToVector napi slot "keyId"
  if size : bytes.length = 32 then return ⟨⟨bytes.toArray, size⟩⟩
  else leave (.rangeError "keyId must be 32 bytes")

def label : Option JsField → NapiM Bytes
  | none | some .undefined | some .null => return []
  | some value => bufferToVector napi (some value) "label"

def blob (slot : Option JsField) : NapiM Bytes := do
  let bytes ← bufferToVector napi slot "blob"
  if bytes = [] then leave (.rangeError "ciphertext blob must not be empty") else return bytes

def share (value : JsField) : NapiM Buf := do
  let bytes ← bufferToVector napi (← property napi value) "share"
  if bytes = [] then leave (.rangeError "share must not be empty") else return .bytes bytes

/-- A label that is empty has no pointer. -/
def labelBuf (label : Bytes) : Buf := if label = [] then .null 0 else .bytes label

def ciphertext (object : JsCiphertext) : NapiM MaanyMpcBackupCiphertext := do
  let kind ← shareKindFromString napi (← property napi object.kind)
  let curve ← curveFromString napi (← property napi object.curve)
  let scheme ← schemeFromString napi (← property napi object.scheme)
  let threshold ← uint32 napi (← property napi object.threshold)
  let shareCount ← uint32 napi (← property napi object.shareCount)
  let keyId ← keyId napi (← property napi object.keyId)
  let label ← label napi (← property napi object.label)
  let blob ← blob napi (← property napi object.blob)
  return { kind, curve, scheme, threshold, shareCount, keyId, label := labelBuf label,
           ciphertext := .bytes blob }

def call (ciphertext : MaanyMpcBackupCiphertext) : Option (List JsField) → NapiM RestoreCall
  | none => leave (.typeError "shares must be an array")
  | some shares =>
    if shares.length < ciphertext.threshold.toNat then
      leave (.rangeError "insufficient shares provided")
    else return ⟨ciphertext, ← shares.mapM (share napi)⟩

/-- `JsBackupRestore` up to the call. -/
def read (backup : JsBackup) : NapiM RestoreCall :=
  match backup.ciphertext with
  | none => leave (.typeError "ciphertext must be an object")
  | some object => do call napi (← ciphertext napi object) backup.shares

end JsBackupRestore

/-! ## The React Native host object -/

/-- What the host object calls of JSI. -/
structure JsiObjects where
  /-- `getProperty` and `getValueAtIndex`, by the value that is there -/
  getProperty : JsField → JsField

structure JsiObjects.Documented (jsi : JsiObjects) : Prop where
  property : ∀ value, jsi.getProperty value = value

/-- What the host object has come to: a value or an exception. -/
abbrev JsiM := ExceptT BindingError Option

namespace BackupRestore

def requireString (value : JsField) (label : String) : JsiM String :=
  match value with
  | .string text => return text
  | _ => throw (.typeError (label ++ " must be a string"))

/-- What `parseShareKind`, `parseCurve` and `parseScheme` do. -/
def enumeration {α : Type} (parse : String → Option α) (label unsupported : String)
    (value : JsField) : JsiM α := do
  let text ← requireString value label
  match parse text with
  | some a => return a
  | none => throw (.typeError (unsupported ++ text))

def parseShareKind : JsField → JsiM ShareKind :=
  enumeration shareKind? "kind" "Unsupported share kind: "

def parseCurve : JsField → JsiM Curve := enumeration curve? "curve" "Unsupported curve: "

def parseScheme : JsField → JsiM Scheme := enumeration scheme? "scheme" "Unsupported scheme: "

/-- `static_cast<uint32_t>` of a number, which is undefined out of range. -/
def uint32 (value : JsField) : JsiM UInt32 :=
  match value with
  | .number n => if 0 ≤ n ∧ n < 2 ^ 32 then return UInt32.ofNat n.toNat else (none : Option _)
  | _ => throw .raised

/-- `static_cast<size_t>` of a number, which is undefined out of range. -/
def extent (value : JsExtent) (missing : ℕ) : JsiM ℕ :=
  match value with
  | .missing => return missing
  | .number n => if 0 ≤ n ∧ n < 2 ^ 64 then return n.toNat else (none : Option _)
  | .other => throw .raised

/-- The sum of the bounds wraps, and then bytes are copied that are not in the buffer. A vector
that is not too long finds its memory. -/
def toByteVector.copy (buffer : Bytes) (byteOffset byteLength : ℕ) (label : String) : JsiM Bytes :=
  if buffer.length < (byteOffset + byteLength) % 2 ^ 64 then
    throw (.typeError (label ++ " has invalid view bounds"))
  else if 2 ^ 63 ≤ byteLength then throw .raised
  else if byteOffset + byteLength ≤ buffer.length then
    return (buffer.drop byteOffset).take byteLength
  else (none : Option _)

def toByteVector (value : JsField) (label : String) : JsiM Bytes :=
  match value with
  | .uint8Array bytes | .arrayBuffer bytes => return bytes
  | .view none _ _ => throw (.typeError (label ++ " must be a Uint8Array"))
  | .view (some buffer) byteOffset byteLength => do
    let byteOffset ← extent byteOffset 0
    let byteLength ← extent byteLength buffer.length
    toByteVector.copy buffer byteOffset byteLength label
  | _ => throw (.typeError (label ++ " must be a Uint8Array or ArrayBuffer"))

def keyId (value : JsField) : JsiM KeyId := do
  let bytes ← toByteVector value "keyId"
  if size : bytes.length = 32 then return ⟨⟨bytes.toArray, size⟩⟩
  else throw (.typeError "keyId must be 32 bytes")

def blob (value : JsField) : JsiM Bytes := do
  let bytes ← toByteVector value "blob"
  if bytes = [] then throw (.typeError "ciphertext blob must not be empty") else return bytes

variable (jsi : JsiObjects)

def share (value : JsField) : JsiM Buf := do
  let bytes ← toByteVector (jsi.getProperty value) "share"
  if bytes = [] then throw (.typeError "share must not be empty") else return .bytes bytes

/-- The pointer of an empty label may be null. -/
def ciphertext (object : JsCiphertext) : JsiM MaanyMpcBackupCiphertext := do
  let kind ← parseShareKind (jsi.getProperty object.kind)
  let curve ← parseCurve (jsi.getProperty object.curve)
  let scheme ← parseScheme (jsi.getProperty object.scheme)
  let threshold ← uint32 (jsi.getProperty object.threshold)
  let shareCount ← uint32 (jsi.getProperty object.shareCount)
  let keyId ← keyId (jsi.getProperty object.keyId)
  let label ← toByteVector (jsi.getProperty object.label) "label"
  let blob ← blob (jsi.getProperty object.blob)
  return { kind, curve, scheme, threshold, shareCount, keyId,
           label := JsBackupRestore.labelBuf label, ciphertext := .bytes blob }

def call (ciphertext : MaanyMpcBackupCiphertext) : Option (List JsField) → JsiM RestoreCall
  | none => throw (.typeError "shares must be an array")
  | some shares =>
    if shares.length < ciphertext.threshold.toNat then
      throw (.typeError "insufficient shares provided")
    else return ⟨ciphertext, ← shares.mapM (share jsi)⟩

/-- `backupRestore` up to the call. -/
def read (backup : JsBackup) : JsiM RestoreCall :=
  match backup.ciphertext with
  | none => throw (.typeError "ciphertext must be an object")
  | some object => do call jsi (← ciphertext jsi object) backup.shares

end BackupRestore

end MaanyMpc
