import MaanyMpc.Coordinator.NodeBuffer
import MaanyMpc.Coordinator.Storage
import MaanyMpc.Library.Transition
import Mathlib.Logic.Function.Basic

/-! # The two storages of coordinator-node

`InMemoryCoordinatorStorage` is a set of `Map`s. `PostgresRedisStorage` is a set of tables
with keys, column types and a foreign key, and a key-value server whose entries expire.
Times are milliseconds. A call answers with `none` when its promise rejects. -/

namespace MaanyMpc

/-! ## Records -/

/-- A record with its `createdAt` and `updatedAt`. -/
structure Stamped (α : Type) where
  record : α
  createdAt : ℤ
  updatedAt : ℤ

/-- What a caller hands over need not have the types of the columns. -/
structure WalletBackupUpsert where
  walletId : String
  ciphertextKind : Json
  ciphertextCurve : Json
  ciphertextScheme : Json
  ciphertextKeyId : Json
  ciphertextThreshold : JsNumber
  ciphertextShareCount : JsNumber
  ciphertextLabel : String
  ciphertextBlob : String
  encryptedCoordinatorFragment : String

inductive SessionType where
  | dkg
  | sign
  | refresh
  deriving DecidableEq

/-- `state` is of any type. -/
structure SessionRecord (V : Type) where
  sessionId : String
  walletId : Option String
  type : SessionType
  state : V
  expiresAt : ℤ

/-- JavaScript values as far as `JSON` is concerned. -/
structure JsonValues (V : Type) where
  undefined : V
  truthy : V → Bool
  /-- `JSON.parse(JSON.stringify(v))`: `none` when `stringify` throws, `some none` when it
  returns `undefined`, as it does for functions. -/
  reparse : V → Option (Option V)
  reparse_reparse : ∀ v w, reparse v = some (some w) → reparse w = some (some w)

/-- `undefined` as the only value. -/
def noValues : JsonValues Unit where
  undefined := ()
  truthy _ := false
  reparse _ := some none
  reparse_reparse _ _ h := by cases h

inductive StorageOp (V : Type) where
  | getWalletShare (walletId : String)
  | saveWalletShare (record : WalletShareUpsert)
  | updateWalletShare (record : WalletShareUpsert)
  | getSession (sessionId : String)
  | saveSession (record : SessionRecord V)
  | deleteSession (sessionId : String)
  | getNonce (walletId : String)
  | setNonce (walletId : String) (value : JsNumber)
  | getWalletBackup (walletId : String)
  | upsertWalletBackup (record : WalletBackupUpsert)

inductive StorageResult (V : Type) where
  | done
  | share (record : Option (Stamped WalletShareUpsert))
  | session (record : Option (SessionRecord V))
  | nonce (value : JsNumber)
  | backup (record : Option (Stamped WalletBackupUpsert))

variable {V : Type}

/-! ## In memory -/

structure InMemoryCoordinatorStorage (V : Type) where
  shares : String → Option (Stamped WalletShareUpsert)
  sessions : String → Option (SessionRecord V)
  nonces : String → Option JsNumber
  backups : String → Option (Stamped WalletBackupUpsert)

/-- `cloneSession`, which throws when a truthy state has no JSON. -/
def cloneSession (js : JsonValues V) (record : SessionRecord V) : Option (SessionRecord V) :=
  if js.truthy record.state then
    match js.reparse record.state with
    | some (some state) => some { record with state := state }
    | _ => none
  else some record

namespace InMemoryCoordinatorStorage

def new : InMemoryCoordinatorStorage V where
  shares _ := none
  sessions _ := none
  nonces _ := none
  backups _ := none

def saveWalletShare (s : InMemoryCoordinatorStorage V) (now : ℤ) (record : WalletShareUpsert) :
    InMemoryCoordinatorStorage V :=
  { s with shares := Function.update s.shares record.walletId (some ⟨record, now, now⟩) }

def updateWalletShare (s : InMemoryCoordinatorStorage V) (now : ℤ)
    (record : WalletShareUpsert) : InMemoryCoordinatorStorage V :=
  let createdAt := ((s.shares record.walletId).map Stamped.createdAt).getD now
  { s with shares := Function.update s.shares record.walletId (some ⟨record, createdAt, now⟩) }

def evictExpiredSession (s : InMemoryCoordinatorStorage V) (now : ℤ) (sessionId : String) :
    InMemoryCoordinatorStorage V :=
  match s.sessions sessionId with
  | none => s
  | some session =>
    if session.expiresAt ≤ now then
      { s with sessions := Function.update s.sessions sessionId none }
    else s

def getSession (js : JsonValues V) (s : InMemoryCoordinatorStorage V) (now : ℤ)
    (sessionId : String) : Option (StorageResult V) × InMemoryCoordinatorStorage V :=
  let s := s.evictExpiredSession now sessionId
  match s.sessions sessionId with
  | none => (some (.session none), s)
  | some record => ((cloneSession js record).map fun clone => .session (some clone), s)

@[simp] theorem evictExpiredSession_shares (s : InMemoryCoordinatorStorage V) (now : ℤ)
    (sessionId : String) : (s.evictExpiredSession now sessionId).shares = s.shares := by
  unfold evictExpiredSession
  split
  · rfl
  · split <;> rfl

@[simp] theorem getSession_shares (js : JsonValues V) (s : InMemoryCoordinatorStorage V)
    (now : ℤ) (sessionId : String) : (s.getSession js now sessionId).2.shares = s.shares := by
  unfold getSession
  simp only
  split <;> exact evictExpiredSession_shares s now sessionId

def saveSession (js : JsonValues V) (s : InMemoryCoordinatorStorage V)
    (record : SessionRecord V) : Option (StorageResult V) × InMemoryCoordinatorStorage V :=
  match cloneSession js record with
  | none => (none, s)
  | some clone =>
    (some .done, { s with sessions := Function.update s.sessions record.sessionId (some clone) })

def upsertWalletBackup (s : InMemoryCoordinatorStorage V) (now : ℤ)
    (record : WalletBackupUpsert) : InMemoryCoordinatorStorage V :=
  let createdAt := ((s.backups record.walletId).map Stamped.createdAt).getD now
  { s with backups := Function.update s.backups record.walletId (some ⟨record, createdAt, now⟩) }

def apply (js : JsonValues V) (s : InMemoryCoordinatorStorage V) (now : ℤ) :
    StorageOp V → Option (StorageResult V) × InMemoryCoordinatorStorage V
  | .getWalletShare walletId => (some (.share (s.shares walletId)), s)
  | .saveWalletShare record => (some .done, s.saveWalletShare now record)
  | .updateWalletShare record => (some .done, s.updateWalletShare now record)
  | .getSession sessionId => s.getSession js now sessionId
  | .saveSession record => s.saveSession js record
  | .deleteSession sessionId =>
    (some .done, { s with sessions := Function.update s.sessions sessionId none })
  | .getNonce walletId => (some (.nonce ((s.nonces walletId).getD (.finite 0))), s)
  | .setNonce walletId value =>
    (some .done, { s with nonces := Function.update s.nonces walletId (some value) })
  | .getWalletBackup walletId => (some (.backup (s.backups walletId)), s)
  | .upsertWalletBackup record => (some .done, s.upsertWalletBackup now record)

end InMemoryCoordinatorStorage

/-! ## Postgres and Redis -/

def deserializeShare (row : WalletShareRow) : WalletShareUpsert where
  walletId := row.walletId
  appId := row.appId
  userId := row.userId
  deviceId := row.deviceId
  publicKey := row.publicKey
  encryptedServerShare := Base64.encode row.encryptedServerShare

theorem deserializeShare_serializeShare {record : WalletShareUpsert}
    (canonical : Base64.Canonical record.encryptedServerShare) :
    deserializeShare (serializeShare bufferFromBase64 record) = record := by
  cases record with
  | mk walletId appId userId deviceId publicKey encryptedServerShare =>
      have share := encode_bufferFromBase64 canonical
      simp only [deserializeShare, serializeShare, share]

structure WalletBackupRow where
  walletId : String
  ciphertextKind : String
  ciphertextCurve : String
  ciphertextScheme : String
  ciphertextKeyId : String
  ciphertextThreshold : ℤ
  ciphertextShareCount : ℤ
  ciphertextLabel : Bytes
  ciphertextBlob : Bytes
  coordinatorFragment : Bytes

/-- `serializeBackup`, and the check of the values against the types of the columns. -/
def serializeBackup (record : WalletBackupUpsert) : Option WalletBackupRow := do
  let kind ← record.ciphertextKind.asString?
  let curve ← record.ciphertextCurve.asString?
  let scheme ← record.ciphertextScheme.asString?
  let keyId ← record.ciphertextKeyId.asString?
  let threshold ← record.ciphertextThreshold.toInt32?
  let shareCount ← record.ciphertextShareCount.toInt32?
  return {
    walletId := record.walletId
    ciphertextKind := kind
    ciphertextCurve := curve
    ciphertextScheme := scheme
    ciphertextKeyId := keyId
    ciphertextThreshold := threshold
    ciphertextShareCount := shareCount
    ciphertextLabel := bufferFromBase64 record.ciphertextLabel
    ciphertextBlob := bufferFromBase64 record.ciphertextBlob
    coordinatorFragment := bufferFromBase64 record.encryptedCoordinatorFragment }

def deserializeBackup (row : WalletBackupRow) : WalletBackupUpsert where
  walletId := row.walletId
  ciphertextKind := .string row.ciphertextKind
  ciphertextCurve := .string row.ciphertextCurve
  ciphertextScheme := .string row.ciphertextScheme
  ciphertextKeyId := .string row.ciphertextKeyId
  ciphertextThreshold := .finite row.ciphertextThreshold
  ciphertextShareCount := .finite row.ciphertextShareCount
  ciphertextLabel := Base64.encode row.ciphertextLabel
  ciphertextBlob := Base64.encode row.ciphertextBlob
  encryptedCoordinatorFragment := Base64.encode row.coordinatorFragment

/-- An entry of Redis: what its text parses to, and the moment at which it is dropped. -/
structure RedisEntry (V : Type) where
  record : SessionRecord V
  deadline : ℤ

structure PostgresRedisStorage (V : Type) where
  walletShare : String → Option (Stamped WalletShareRow)
  walletNonce : String → Option ℤ
  walletBackup : String → Option (Stamped WalletBackupRow)
  redis : String → Option (RedisEntry V)

/-- `` `${SESSION_PREFIX}${sessionId}` ``. -/
def sessionName (sessionId : String) : String := "session:" ++ sessionId

theorem sessionName_injective : Function.Injective sessionName := by
  intro a b h
  exact (String.append_right_inj _).mp h

/-- What `serializeSession` and `JSON.stringify` keep of a record, read back. -/
def serializeSession (js : JsonValues V) (record : SessionRecord V) :
    Option (SessionRecord V) :=
  (js.reparse record.state).map fun state => { record with state := state.getD js.undefined }

def ttlSeconds (record : SessionRecord V) (now : ℤ) : ℤ :=
  max 60 ((record.expiresAt - now) / 1000)

/-- `deserializeSession`, which knows the time as well. -/
def deserializeSession (entry : Option (RedisEntry V)) (now : ℤ) : Option (SessionRecord V) :=
  match entry with
  | none => none
  | some entry => if entry.record.expiresAt ≤ now then none else some entry.record

namespace PostgresRedisStorage

def new : PostgresRedisStorage V where
  walletShare _ := none
  walletNonce _ := none
  walletBackup _ := none
  redis _ := none

/-- `create` rejects an existing primary key. -/
def saveWalletShare (s : PostgresRedisStorage V) (now : ℤ) (record : WalletShareUpsert) :
    Option (PostgresRedisStorage V) :=
  match s.walletShare record.walletId with
  | some _ => none
  | none =>
    let row := serializeShare bufferFromBase64 record
    some { s with
           walletShare := Function.update s.walletShare record.walletId (some ⟨row, now, now⟩) }

/-- `update` rejects a missing row. -/
def updateWalletShare (s : PostgresRedisStorage V) (now : ℤ) (record : WalletShareUpsert) :
    Option (PostgresRedisStorage V) :=
  match s.walletShare record.walletId with
  | none => none
  | some old =>
    let row := serializeShare bufferFromBase64 record
    some { s with walletShare := Function.update s.walletShare record.walletId
                    (some ⟨row, old.createdAt, now⟩) }

/-- Redis drops an entry at its deadline. -/
def redisGet (s : PostgresRedisStorage V) (now : ℤ) (name : String) : Option (RedisEntry V) :=
  (s.redis name).filter fun entry => decide (now < entry.deadline)

def saveSession (js : JsonValues V) (s : PostgresRedisStorage V) (now : ℤ)
    (record : SessionRecord V) : Option (PostgresRedisStorage V) :=
  (serializeSession js record).map fun kept =>
    { s with redis := Function.update s.redis (sessionName record.sessionId)
               (some ⟨kept, now + 1000 * ttlSeconds record now⟩) }

def setNonce (s : PostgresRedisStorage V) (walletId : String) (value : JsNumber) :
    Option (PostgresRedisStorage V) :=
  value.toInt32?.map fun value =>
    { s with walletNonce := Function.update s.walletNonce walletId (some value) }

/-- The row references a wallet share. -/
def upsertWalletBackup (s : PostgresRedisStorage V) (now : ℤ) (record : WalletBackupUpsert) :
    Option (PostgresRedisStorage V) :=
  match s.walletShare record.walletId, serializeBackup record with
  | some _, some row =>
    let createdAt := ((s.walletBackup record.walletId).map Stamped.createdAt).getD now
    some { s with walletBackup := Function.update s.walletBackup record.walletId
                    (some ⟨row, createdAt, now⟩) }
  | _, _ => none

/-- A rejected write leaves the tables as they are. -/
def wrote (s : PostgresRedisStorage V) :
    Option (PostgresRedisStorage V) → Option (StorageResult V) × PostgresRedisStorage V
  | none => (none, s)
  | some s' => (some .done, s')

def apply (js : JsonValues V) (s : PostgresRedisStorage V) (now : ℤ) :
    StorageOp V → Option (StorageResult V) × PostgresRedisStorage V
  | .getWalletShare walletId =>
    (some (.share ((s.walletShare walletId).map fun row =>
      ⟨deserializeShare row.record, row.createdAt, row.updatedAt⟩)), s)
  | .saveWalletShare record => s.wrote (s.saveWalletShare now record)
  | .updateWalletShare record => s.wrote (s.updateWalletShare now record)
  | .getSession sessionId =>
    (some (.session (deserializeSession (s.redisGet now (sessionName sessionId)) now)), s)
  | .saveSession record => s.wrote (s.saveSession js now record)
  | .deleteSession sessionId =>
    (some .done, { s with redis := Function.update s.redis (sessionName sessionId) none })
  | .getNonce walletId =>
    (some (.nonce (((s.walletNonce walletId).map fun value : ℤ => .finite value).getD
      (.finite 0))), s)
  | .setNonce walletId value => s.wrote (s.setNonce walletId value)
  | .getWalletBackup walletId =>
    (some (.backup ((s.walletBackup walletId).map fun row =>
      ⟨deserializeBackup row.record, row.createdAt, row.updatedAt⟩)), s)
  | .upsertWalletBackup record => s.wrote (s.upsertWalletBackup now record)

end PostgresRedisStorage

/-! ## Either one -/

/-- An implementation of `CoordinatorStorage`. -/
structure CoordinatorStorage (σ V : Type) where
  apply : σ → ℤ → StorageOp V → Option (StorageResult V) × σ

def memoryStorage (js : JsonValues V) :
    CoordinatorStorage (InMemoryCoordinatorStorage V) V where
  apply := InMemoryCoordinatorStorage.apply js

def databaseStorage (js : JsonValues V) : CoordinatorStorage (PostgresRedisStorage V) V where
  apply := PostgresRedisStorage.apply js

end MaanyMpc
