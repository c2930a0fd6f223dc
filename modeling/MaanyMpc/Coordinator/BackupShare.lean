import MaanyMpc.Coordinator.NodeBuffer
import MaanyMpc.Coordinator.Stores
import MaanyMpc.Library.Fallible

/-! # Backup-share frames

What the coordinator makes of the payload of a `backup-share` frame, up to the encryption of
the fragment. The payload is any JSON value whose type field says so. -/

namespace MaanyMpc

/-- What is thrown: an `Error` with a message of the source, or the `TypeError` of the language
for a property of `null` or a call of something that is no function. -/
inductive JsError where
  | error (message : String)
  | typeError
  deriving DecidableEq

/-- `/^[0-9a-fA-F]+$/.test(value) && value.length % 2 === 0`. -/
def inferEncoding (value : String) : Json :=
  let digits := value.toList
  if digits ≠ [] ∧ (digits.all fun c => (hexValue? c).isSome) ∧ digits.length % 2 = 0 then
    .string "hex"
  else .string "base64"

def decodeBinary (value encoding : Option Json) (field : String) : Except JsError Bytes :=
  match value with
  | some (.string text) =>
    let trimmed := trim text
    if text = "" ∨ trimmed = "" then .ok []
    else
      let format := (coalesce encoding none).getD (inferEncoding trimmed)
      match bufferFrom trimmed format with
      | some bytes => .ok bytes
      | none => .error (.error ("backup-share " ++ field ++ " invalid " ++
          format.asString?.getD ""))
  | _ => .error (.error ("backup-share " ++ field ++ " missing"))

structure BackupShareCiphertext where
  kind : Json
  curve : Json
  scheme : Json
  keyId : Json
  threshold : JsNumber
  shareCount : JsNumber
  label : Bytes
  blob : Bytes

def parseCiphertext (payload : Json) : Except JsError BackupShareCiphertext := do
  let kind := payload.get? "kind"
  let curve := payload.get? "curve"
  let scheme := payload.get? "scheme"
  let keyId := payload.get? "keyId"
  if !truthy? kind || !truthy? curve || !truthy? scheme || !truthy? keyId then
    throw (.error "backup-share ciphertext missing metadata")
  match payload.get? "threshold", payload.get? "shareCount" with
  | some (.number threshold), some (.number shareCount) =>
    let label ← decodeBinary (payload.get? "label") (payload.get? "labelEncoding")
      "ciphertext.label"
    let blob ← decodeBinary (payload.get? "blob") (payload.get? "blobEncoding") "ciphertext.blob"
    return {
      kind := kind.getD .null
      curve := curve.getD .null
      scheme := scheme.getD .null
      keyId := keyId.getD .null
      threshold, shareCount, label, blob }
  | _, _ => throw (.error "backup-share ciphertext missing threshold/shareCount")

theorem truthy?_eq_true_iff {value : Option Json} :
    truthy? value = true ↔ ∃ v, value = some v ∧ v.truthy = true := by
  cases value with
  | none => simp [truthy?]
  | some v => simp [truthy?]

theorem parseCiphertext_eq_ok_iff {payload : Json} {c : BackupShareCiphertext} :
    parseCiphertext payload = .ok c ↔
      (payload.get? "kind" = some c.kind ∧ c.kind.truthy = true) ∧
      (payload.get? "curve" = some c.curve ∧ c.curve.truthy = true) ∧
      (payload.get? "scheme" = some c.scheme ∧ c.scheme.truthy = true) ∧
      (payload.get? "keyId" = some c.keyId ∧ c.keyId.truthy = true) ∧
      payload.get? "threshold" = some (.number c.threshold) ∧
      payload.get? "shareCount" = some (.number c.shareCount) ∧
      decodeBinary (payload.get? "label") (payload.get? "labelEncoding") "ciphertext.label" =
        .ok c.label ∧
      decodeBinary (payload.get? "blob") (payload.get? "blobEncoding") "ciphertext.blob" =
        .ok c.blob := by
  obtain ⟨kind, curve, scheme, keyId, threshold, shareCount, label, blob⟩ := c
  simp only [parseCiphertext]
  by_cases metadata : (!truthy? (payload.get? "kind") || !truthy? (payload.get? "curve") ||
      !truthy? (payload.get? "scheme") || !truthy? (payload.get? "keyId")) = true
  · rw [if_pos metadata]
    refine ⟨fun h => by simp [bind, Except.bind, throw, throwThe, MonadExceptOf.throw] at h, ?_⟩
    rintro ⟨⟨hkind, tkind⟩, ⟨hcurve, tcurve⟩, ⟨hscheme, tscheme⟩, ⟨hkeyId, tkeyId⟩, _⟩
    simp [hkind, hcurve, hscheme, hkeyId, truthy?, tkind, tcurve, tscheme, tkeyId] at metadata
  · rw [if_neg metadata]
    simp only [Bool.or_eq_true, Bool.not_eq_true', not_or, Bool.not_eq_false,
      truthy?_eq_true_iff] at metadata
    obtain ⟨⟨⟨⟨kind', hkind, tkind⟩, curve', hcurve, tcurve⟩, scheme', hscheme, tscheme⟩, keyId',
      hkeyId, tkeyId⟩ := metadata
    simp only [hkind, hcurve, hscheme, hkeyId, Option.getD_some, Option.some.injEq]
    split
    next threshold' shareCount' hthreshold hshareCount =>
      rw [hthreshold, hshareCount]
      simp only [Fallible.bind_eq_ok, pure, Except.pure, Except.ok.injEq,
        BackupShareCiphertext.mk.injEq]
      constructor
      · rintro ⟨label', hlabel, blob', hblob, rfl, rfl, rfl, rfl, rfl, rfl, rfl, rfl⟩
        exact ⟨⟨rfl, tkind⟩, ⟨rfl, tcurve⟩, ⟨rfl, tscheme⟩, ⟨rfl, tkeyId⟩, rfl, rfl, hlabel, hblob⟩
      · rintro ⟨⟨rfl, _⟩, ⟨rfl, _⟩, ⟨rfl, _⟩, ⟨rfl, _⟩, hthreshold', hshareCount', hlabel, hblob⟩
        cases hthreshold'
        cases hshareCount'
        exact ⟨label, hlabel, blob, hblob, rfl, rfl, rfl, rfl, rfl, rfl, rfl, rfl⟩
    next other =>
      refine ⟨fun h => by simp [throw, throwThe, MonadExceptOf.throw] at h, ?_⟩
      rintro ⟨_, _, _, _, hthreshold, hshareCount, _⟩
      exact absurd hshareCount (other threshold shareCount hthreshold)

/-- What `processBackupShare` holds when it waits for the encryptor. -/
structure BackupDraft where
  walletId : String
  fragment : Bytes
  ciphertext : BackupShareCiphertext

/-- `(payload.walletId ?? payload.keyId ?? state.intent.keyId)?.trim()`, with the check of
the result. -/
def walletIdentifier (payload : Json) (intentKeyId : Option Json) : Except JsError String :=
  match coalesce (coalesce (payload.get? "walletId") (payload.get? "keyId")) intentKeyId with
  | none | some .null => .error (.error "backup-share missing wallet identifier")
  | some (.string text) =>
    if trim text = "" then .error (.error "backup-share missing wallet identifier")
    else .ok (trim text)
  | some _ => .error .typeError

/-- `processBackupShare` up to the call of the encryptor. `state` holds the keyId of the intent
of the session, when there is a session. -/
def processBackupShare (state : Option (Option Json)) (payload : Json) :
    Except JsError BackupDraft := do
  let some intentKeyId := state | throw (.error "session not found")
  let walletId ← walletIdentifier payload intentKeyId
  let source := coalesce (payload.get? "fragment") (payload.get? "share")
  if !truthy? source then throw (.error "backup-share missing fragment payload")
  let some ciphertextPayload := (payload.get? "ciphertext").filter Json.truthy
    | throw (.error "backup-share missing ciphertext")
  let fragment ← decodeBinary source (payload.get? "fragmentEncoding") "fragment"
  let ciphertext ← parseCiphertext ciphertextPayload
  return ⟨walletId, fragment, ciphertext⟩

/-- `payload.fragment ?? payload.share`. -/
def fragmentSource (payload : Json) : Option Json :=
  coalesce (payload.get? "fragment") (payload.get? "share")

theorem walletIdentifier_eq_ok_iff {payload : Json} {intentKeyId : Option Json}
    {walletId : String} : walletIdentifier payload intentKeyId = .ok walletId ↔
      ∃ text, coalesce (coalesce (payload.get? "walletId") (payload.get? "keyId")) intentKeyId =
        some (.string text) ∧ trim text = walletId ∧ walletId ≠ "" := by
  unfold walletIdentifier
  cases coalesce (coalesce (payload.get? "walletId") (payload.get? "keyId")) intentKeyId with
  | none => simp
  | some value =>
      cases value with
      | string text =>
          by_cases empty : trim text = ""
          · simp only [empty, if_true, reduceCtorEq, Option.some.injEq, Json.string.injEq,
              false_iff, not_exists]
            rintro text' ⟨rfl, rfl, nonempty⟩
            exact nonempty empty
          · simp only [empty, if_false, Except.ok.injEq, Option.some.injEq, Json.string.injEq]
            constructor
            · rintro rfl
              exact ⟨text, rfl, rfl, empty⟩
            · rintro ⟨text', rfl, rfl, _⟩
              rfl
      | _ => simp

/-- What an accepted payload has, field by field. -/
theorem processBackupShare_eq_ok_iff {intentKeyId : Option Json} {payload : Json}
    {draft : BackupDraft} : processBackupShare (some intentKeyId) payload = .ok draft ↔
      walletIdentifier payload intentKeyId = .ok draft.walletId ∧
        truthy? (fragmentSource payload) = true ∧
        decodeBinary (fragmentSource payload) (payload.get? "fragmentEncoding") "fragment" =
          .ok draft.fragment ∧
        ∃ ciphertext, (payload.get? "ciphertext").filter Json.truthy = some ciphertext ∧
          parseCiphertext ciphertext = .ok draft.ciphertext := by
  obtain ⟨walletId, fragment, ciphertext⟩ := draft
  simp only [processBackupShare, fragmentSource]
  cases wallet : walletIdentifier payload intentKeyId with
  | error err => simp [bind, Except.bind]
  | ok walletId' =>
      cases truthy : truthy? (coalesce (payload.get? "fragment") (payload.get? "share")) with
      | false => simp [bind, Except.bind, throw, throwThe, MonadExceptOf.throw]
      | true =>
          cases object : (payload.get? "ciphertext").filter Json.truthy with
          | none => simp [bind, Except.bind, throw, throwThe, MonadExceptOf.throw]
          | some value =>
              cases decodeBinary (coalesce (payload.get? "fragment") (payload.get? "share"))
                  (payload.get? "fragmentEncoding") "fragment" with
              | error err => simp [bind, Except.bind]
              | ok fragment' =>
                  cases parsed : parseCiphertext value with
                  | error err => simp [bind, Except.bind, parsed]
                  | ok ciphertext' => simp [bind, Except.bind, pure, Except.pure, parsed]

/-- The record that `upsertWalletBackup` gets once the fragment is encrypted. -/
def BackupDraft.record (draft : BackupDraft) (encryptedFragment : String) :
    WalletBackupUpsert where
  walletId := draft.walletId
  ciphertextKind := draft.ciphertext.kind
  ciphertextCurve := draft.ciphertext.curve
  ciphertextScheme := draft.ciphertext.scheme
  ciphertextKeyId := draft.ciphertext.keyId
  ciphertextThreshold := draft.ciphertext.threshold
  ciphertextShareCount := draft.ciphertext.shareCount
  ciphertextLabel := Base64.encode draft.ciphertext.label
  ciphertextBlob := Base64.encode draft.ciphertext.blob
  encryptedCoordinatorFragment := encryptedFragment

end MaanyMpc
