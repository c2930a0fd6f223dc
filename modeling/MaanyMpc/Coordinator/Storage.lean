import MaanyMpc.Coordinator.Bytes

/-! # Where the coordinators keep shares

The wallet shares of coordinator-node, down to the row of the database, and the device
shares of coordinator-rn, down to the preferences of Android. -/

namespace MaanyMpc

/-! ## coordinator-node -/

structure WalletShareUpsert where
  walletId : String
  appId : Option String
  userId : Option String
  deviceId : Option String
  publicKey : Option String
  encryptedServerShare : String
  deriving DecidableEq

/-- The row that `serializeShare` hands to the database, with `null` for what is missing. -/
structure WalletShareRow where
  walletId : String
  appId : Option String
  userId : Option String
  deviceId : Option String
  publicKey : Option String
  encryptedServerShare : Bytes
  deriving DecidableEq

/-- `bufferFrom` is `Buffer.from(_, 'base64')`. -/
def serializeShare (bufferFrom : String → Bytes) (record : WalletShareUpsert) :
    WalletShareRow where
  walletId := record.walletId
  appId := record.appId
  userId := record.userId
  deviceId := record.deviceId
  publicKey := record.publicKey
  encryptedServerShare := bufferFrom record.encryptedServerShare

/-- Everything but the protected payload. -/
def WalletShareUpsert.outside (record : WalletShareUpsert) : WalletShareUpsert :=
  { record with encryptedServerShare := "" }

def WalletShareRow.outside (row : WalletShareRow) : WalletShareRow :=
  { row with encryptedServerShare := [] }

/-- The columns outside the payload show the fields outside the payload and nothing else. -/
theorem serializeShare_outside_eq_iff (bufferFrom : String → Bytes) (a b : WalletShareUpsert) :
    (serializeShare bufferFrom a).outside = (serializeShare bufferFrom b).outside ↔
      a.outside = b.outside := by
  simp [serializeShare, WalletShareRow.outside, WalletShareUpsert.outside]

/-! ## coordinator-rn -/

structure ShareRecord where
  keyId : String
  blob : Bytes
  deriving DecidableEq

/-- The characters that `sanitizeKey` keeps: `[A-Za-z0-9_]`. -/
def isKeyChar (c : Char) : Bool :=
  ('A' ≤ c && c ≤ 'Z') || ('a' ≤ c && c ≤ 'z') || ('0' ≤ c && c ≤ '9') || c == '_'

def sanitizeKey (keyId : String) : String :=
  keyId.map fun c => if isKeyChar c then c else '_'

/-- The name under which `SecureShareStorageModule` puts a share into the preferences. -/
def prefKey (keyId : String) : String := "share_" ++ sanitizeKey keyId

theorem isKeyChar_hexByte (byte : UInt8) : ∀ c ∈ hexByte byte, isKeyChar c = true := by
  have table : ∀ i : Fin 16, isKeyChar (Nat.digitChar i) = true := by decide
  have bound : byte.toNat < 256 := byte.toNat_lt
  simp only [hexByte, List.forall_mem_cons]
  exact ⟨table ⟨byte.toNat / 16, by omega⟩, table ⟨byte.toNat % 16, by omega⟩, by simp⟩

/-- A name in hexadecimal stays as it is. -/
theorem sanitizeKey_toHex (bytes : Bytes) : sanitizeKey (toHex bytes) = toHex bytes := by
  have kept : ∀ c ∈ bytes.flatMap hexByte, (if isKeyChar c then c else '_') = id c := by
    intro c mem
    obtain ⟨byte, _, digit⟩ := List.mem_flatMap.mp mem
    rw [if_pos (isKeyChar_hexByte byte c digit), id]
  apply String.toList_injective
  rw [sanitizeKey, String.toList_map, toHex, String.toList_ofList, List.map_congr_left kept,
    List.map_id]

/-- Two shares that are saved under their hexadecimal form have different names. -/
theorem prefKey_toHex_injective : Function.Injective fun bytes => prefKey (toHex bytes) := by
  intro xs ys h
  simp only [prefKey, sanitizeKey_toHex] at h
  exact toHex_injective ((String.append_right_inj _).mp h)

end MaanyMpc
