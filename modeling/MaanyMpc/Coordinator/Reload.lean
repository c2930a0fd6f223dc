import MaanyMpc.Coordinator.Dkg
import MaanyMpc.Coordinator.KeyEncryptor
import MaanyMpc.Coordinator.Stores

/-! # Reloading the server share

The end of `runDkg` of coordinator-node writes an encrypted share to a storage. What it
relies on: a share that was written is what a later call reads, and a share that was
encrypted decrypts. -/

namespace MaanyMpc

variable {V σ : Type}

/-! ## Storages -/

/-- The call writes the share of this wallet. -/
def StorageOp.WritesShare (walletId : String) : StorageOp V → Prop
  | .saveWalletShare record | .updateWalletShare record => record.walletId = walletId
  | _ => False

namespace CoordinatorStorage

/-- At any time `getWalletShare` answers with this record. -/
def Holds (storage : CoordinatorStorage σ V) (s : σ) (record : WalletShareUpsert) : Prop :=
  ∀ now, ∃ c u, (storage.apply s now (.getWalletShare record.walletId)).1 =
    some (.share (some ⟨record, c, u⟩))

/-- A share that was written is read until the next write of its wallet. -/
structure GetAfterSave (storage : CoordinatorStorage σ V) : Prop where
  written : ∀ s now record r, Base64.Canonical record.encryptedServerShare →
    ∀ op ∈ [StorageOp.saveWalletShare record, .updateWalletShare record],
      (storage.apply s now op).1 = some r → storage.Holds (storage.apply s now op).2 record
  kept : ∀ s now record op, storage.Holds s record → ¬ op.WritesShare record.walletId →
    storage.Holds (storage.apply s now op).2 record

/-- The state after calls of other parties. -/
def replay (storage : CoordinatorStorage σ V) (s : σ) (calls : List (ℤ × StorageOp V)) : σ :=
  calls.foldl (fun s call => (storage.apply s call.1 call.2).2) s

theorem GetAfterSave.holds_replay {storage : CoordinatorStorage σ V}
    (law : storage.GetAfterSave) {record : WalletShareUpsert} {calls : List (ℤ × StorageOp V)}
    (others : ∀ call ∈ calls, ¬ call.2.WritesShare record.walletId) {s : σ}
    (holds : storage.Holds s record) : storage.Holds (storage.replay s calls) record := by
  induction calls generalizing s with
  | nil => exact holds
  | cons call calls ih =>
      rw [List.forall_mem_cons] at others
      exact ih others.2 (law.kept s call.1 record call.2 holds others.1)

end CoordinatorStorage

/-! ### In memory -/

theorem memoryStorage_holds_iff (js : JsonValues V) (s : InMemoryCoordinatorStorage V)
    (record : WalletShareUpsert) : (memoryStorage js).Holds s record ↔
      ∃ c u, s.shares record.walletId = some ⟨record, c, u⟩ := by
  simp [CoordinatorStorage.Holds, memoryStorage, InMemoryCoordinatorStorage.apply]

/-- Only a write of a wallet changes its share. -/
theorem InMemoryCoordinatorStorage.apply_shares (js : JsonValues V)
    (s : InMemoryCoordinatorStorage V) (now : ℤ) {op : StorageOp V} {walletId : String}
    (other : ¬ op.WritesShare walletId) :
    (s.apply js now op).2.shares walletId = s.shares walletId := by
  cases op with
  | saveWalletShare record | updateWalletShare record =>
      exact Function.update_of_ne (fun same => other same.symm) ..
  | getSession sessionId => exact congrFun (s.getSession_shares js now sessionId) walletId
  | saveSession record =>
      simp only [apply, saveSession]
      split <;> rfl
  | _ => rfl

theorem memoryStorage_getAfterSave (js : JsonValues V) : (memoryStorage js).GetAfterSave where
  written s now record r _ op hop _ := by
    rw [memoryStorage_holds_iff]
    simp only [List.mem_cons, List.not_mem_nil, or_false] at hop
    rcases hop with rfl | rfl
    · exact ⟨now, now, Function.update_self ..⟩
    · exact ⟨_, now, Function.update_self ..⟩
  kept s now record op holds other := by
    rw [memoryStorage_holds_iff] at holds ⊢
    obtain ⟨c, u, stored⟩ := holds
    exact ⟨c, u, (s.apply_shares js now other).trans stored⟩

/-! ### In the database -/

theorem databaseStorage_holds_iff (js : JsonValues V) (s : PostgresRedisStorage V)
    (record : WalletShareUpsert) : (databaseStorage js).Holds s record ↔
      ∃ row c u, s.walletShare record.walletId = some ⟨row, c, u⟩ ∧
        deserializeShare row = record := by
  constructor
  · intro holds
    obtain ⟨c, u, answer⟩ := holds 0
    simp only [databaseStorage, PostgresRedisStorage.apply, Option.some.injEq,
      StorageResult.share.injEq, Option.map_eq_some_iff, Stamped.mk.injEq] at answer
    obtain ⟨stamped, stored, reads, _, _⟩ := answer
    exact ⟨stamped.record, stamped.createdAt, stamped.updatedAt, stored, reads⟩
  · rintro ⟨row, c, u, stored, reads⟩ now
    exact ⟨c, u, by simp [databaseStorage, PostgresRedisStorage.apply, stored, reads]⟩

/-- A table that a write does not touch, if the write goes through at all. -/
theorem PostgresRedisStorage.wrote_walletShare {s : PostgresRedisStorage V}
    {write : Option (PostgresRedisStorage V)} {walletId : String}
    (untouched : ∀ s', write = some s' → s'.walletShare walletId = s.walletShare walletId) :
    (s.wrote write).2.walletShare walletId = s.walletShare walletId := by
  cases write with
  | none => rfl
  | some s' => exact untouched s' rfl

theorem PostgresRedisStorage.apply_walletShare (js : JsonValues V) (s : PostgresRedisStorage V)
    (now : ℤ) {op : StorageOp V} {walletId : String} (other : ¬ op.WritesShare walletId) :
    (s.apply js now op).2.walletShare walletId = s.walletShare walletId := by
  cases op with
  | saveWalletShare record =>
      refine wrote_walletShare fun s' written => ?_
      unfold saveWalletShare at written
      split at written <;> cases written
      exact Function.update_of_ne (fun same => other same.symm) ..
  | updateWalletShare record =>
      refine wrote_walletShare fun s' written => ?_
      unfold updateWalletShare at written
      split at written <;> cases written
      exact Function.update_of_ne (fun same => other same.symm) ..
  | saveSession record =>
      refine wrote_walletShare fun s' written => ?_
      obtain ⟨kept, _, rfl⟩ := Option.map_eq_some_iff.mp written
      rfl
  | setNonce name value =>
      refine wrote_walletShare fun s' written => ?_
      obtain ⟨column, _, rfl⟩ := Option.map_eq_some_iff.mp written
      rfl
  | upsertWalletBackup record =>
      refine wrote_walletShare fun s' written => ?_
      unfold upsertWalletBackup at written
      split at written <;> cases written
      rfl
  | _ => rfl

theorem databaseStorage_getAfterSave (js : JsonValues V) :
    (databaseStorage js).GetAfterSave where
  written s now record r canonical op hop resolved := by
    rw [databaseStorage_holds_iff]
    have reads := deserializeShare_serializeShare canonical
    simp only [List.mem_cons, List.not_mem_nil, or_false] at hop
    rcases hop with rfl | rfl
    · cases present : s.walletShare record.walletId with
      | some old =>
          simp [databaseStorage, PostgresRedisStorage.apply, PostgresRedisStorage.saveWalletShare,
            present, PostgresRedisStorage.wrote] at resolved
      | none =>
          simp only [databaseStorage, PostgresRedisStorage.apply,
            PostgresRedisStorage.saveWalletShare, present, PostgresRedisStorage.wrote]
          exact ⟨_, now, now, Function.update_self .., reads⟩
    · cases present : s.walletShare record.walletId with
      | none =>
          simp [databaseStorage, PostgresRedisStorage.apply,
            PostgresRedisStorage.updateWalletShare, present, PostgresRedisStorage.wrote] at resolved
      | some old =>
          simp only [databaseStorage, PostgresRedisStorage.apply,
            PostgresRedisStorage.updateWalletShare, present, PostgresRedisStorage.wrote]
          exact ⟨_, old.createdAt, now, Function.update_self .., reads⟩
  kept s now record op holds other := by
    rw [databaseStorage_holds_iff] at holds ⊢
    obtain ⟨row, c, u, stored, reads⟩ := holds
    exact ⟨row, c, u, (s.apply_walletShare js now other).trans stored, reads⟩

/-! ## The end of runDkg -/

/-- What `runDkg` does with the storage once the keypairs are there: it looks the wallet up
and updates or saves its share. Calls of other parties may come in between. The result is
the state in which `runDkg` resolves. -/
def storeShare (storage : CoordinatorStorage σ V) (s : σ) (lookup write : ℤ)
    (between : List (ℤ × StorageOp V)) (record : WalletShareUpsert) : Option σ :=
  match storage.apply s lookup (.getWalletShare record.walletId) with
  | (some (.share existing), s) =>
    let op := if existing.isSome then .updateWalletShare record else .saveWalletShare record
    match storage.apply (storage.replay s between) write op with
    | (some _, s) => some s
    | (none, _) => none
  | _ => none

/-- Whatever `runDkg` stored is what `getWalletShare` gives back, and what decrypts to the
share, until somebody writes a share for the same wallet. -/
def Reloads (gcm : NodeGcm) (storage : CoordinatorStorage σ V) : Prop :=
  ∀ (encryptor : Encryptor) (opts : CoordinatorNode.DkgOptions) (iv : Vector UInt8 12)
    (serverBlob compressed : Bytes) (s s' : σ) (lookup write : ℤ)
    (between later : List (ℤ × StorageOp V)),
    let run : CoordinatorNode.Execution :=
      ⟨serverBlob, compressed, (encryptor.keyEncryptor gcm).encryptShare iv⟩
    let walletId := CoordinatorNode.walletId opts serverBlob
    storeShare storage s lookup write between (CoordinatorNode.walletShare opts run) = some s' →
    (∀ call ∈ later, ¬ call.2.WritesShare walletId) →
    ∀ now, ∃ stamped : Stamped WalletShareUpsert,
      (storage.apply (storage.replay s' later) now (.getWalletShare walletId)).1 =
        some (.share (some stamped)) ∧
      (encryptor.keyEncryptor gcm).decryptShare stamped.record.encryptedServerShare =
        some serverBlob ∧
      stamped.record.publicKey = some (toHex compressed)

theorem storeShare_holds {storage : CoordinatorStorage σ V} (law : storage.GetAfterSave)
    {s s' : σ} {lookup write : ℤ} {between : List (ℤ × StorageOp V)}
    {record : WalletShareUpsert} (canonical : Base64.Canonical record.encryptedServerShare)
    (stored : storeShare storage s lookup write between record = some s') :
    storage.Holds s' record := by
  unfold storeShare at stored
  split at stored
  next existing s₁ looked =>
    simp only at stored
    split at stored
    next r _ written =>
      cases stored
      have holds := law.written (storage.replay s₁ between) write record r canonical
        (if existing.isSome then .updateWalletShare record else .saveWalletShare record)
        (by split_ifs <;> simp) (by rw [written])
      rwa [written] at holds
    · cases stored
  · cases stored

theorem CoordinatorStorage.GetAfterSave.reloads {gcm : NodeGcm} (hgcm : gcm.Lawful)
    {storage : CoordinatorStorage σ V} (law : storage.GetAfterSave) : Reloads gcm storage := by
  intro encryptor opts iv serverBlob compressed s s' lookup write between later run walletId
    stored others now
  have canonical : Base64.Canonical (CoordinatorNode.walletShare opts run).encryptedServerShare :=
    encryptor.canonical_encryptShare gcm iv serverBlob
  have decrypts : (encryptor.keyEncryptor gcm).decryptShare
      (CoordinatorNode.walletShare opts run).encryptedServerShare = some serverBlob :=
    encryptor.decryptShare_encryptShare hgcm iv serverBlob
  obtain ⟨c, u, answer⟩ := law.holds_replay others (storeShare_holds law canonical stored) now
  exact ⟨⟨CoordinatorNode.walletShare opts run, c, u⟩, answer, decrypts, rfl⟩

/-- The coordinator reloads the share it stored, in every storage that keeps what it is
given, and both storages do. -/
theorem stored_share_reloads {gcm : NodeGcm} (hgcm : gcm.Lawful) :
    (∀ {σ V : Type} (storage : CoordinatorStorage σ V), storage.GetAfterSave →
        Reloads gcm storage) ∧
      (∀ {V : Type} (js : JsonValues V), Reloads gcm (memoryStorage js)) ∧
      ∀ {V : Type} (js : JsonValues V), Reloads gcm (databaseStorage js) :=
  ⟨fun _ law => law.reloads hgcm, fun js => (memoryStorage_getAfterSave js).reloads hgcm,
    fun js => (databaseStorage_getAfterSave js).reloads hgcm⟩

/-- A key generation into an empty database, and a read after a nonce has been set. -/
theorem stored_share_reloads_database :
    ∃ s', storeShare (databaseStorage noValues) .new 0 1 []
        (CoordinatorNode.walletShare ⟨some [1], none⟩ ⟨[7], [2],
          ((Encryptor.aesGcm (Vector.replicate 32 9)).keyEncryptor sampleNodeGcm).encryptShare
            (Vector.replicate 12 5)⟩) = some s' ∧
      ∃ stamped : Stamped WalletShareUpsert,
        ((databaseStorage noValues).apply ((databaseStorage noValues).replay s'
            [(2, .setNonce "01" (.finite 3))]) 4 (.getWalletShare "01")).1 =
          some (.share (some stamped)) ∧
        ((Encryptor.aesGcm (Vector.replicate 32 9)).keyEncryptor sampleNodeGcm).decryptShare
          stamped.record.encryptedServerShare = some [7] ∧
        stamped.record.publicKey = some "02" := by
  refine ⟨_, rfl, ?_⟩
  exact (stored_share_reloads sampleNodeGcm_lawful).2.2 noValues (.aesGcm (Vector.replicate 32 9))
    ⟨some [1], none⟩ (Vector.replicate 12 5) [7] [2] .new _ 0 1 [] [(2, .setNonce "01" (.finite 3))]
    rfl (by simp [StorageOp.WritesShare]) 4

end MaanyMpc
