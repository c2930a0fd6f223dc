import MaanyMpc.Coordinator.Storage
import Mathlib.Logic.Function.Basic

/-! # What a key generation stores

The end of `runDkg`, in coordinator-node and in coordinator-rn, where the keypairs have
been finalized and the shares go to a storage whose calls all resolve. -/

namespace MaanyMpc

/-! ## coordinator-node -/

namespace CoordinatorNode

structure Metadata where
  walletId : Option String
  appId : Option String
  userId : Option String
  deviceId : Option String

/-- The options that are read after the exchange with the device. -/
structure DkgOptions where
  keyId : Option Bytes
  metadata : Option Metadata

/-- What one execution gets from the bindings and from the encryptor. -/
structure Execution where
  /-- `kpExport` of the server keypair -/
  serverBlob : Bytes
  /-- `kpPubkey` of the server keypair -/
  compressed : Bytes
  encryptShare : Bytes → String

inductive StorageCall where
  | getWalletShare (walletId : String)
  | saveWalletShare (record : WalletShareUpsert)
  | updateWalletShare (record : WalletShareUpsert)
  deriving DecidableEq

def walletId (opts : DkgOptions) (serverBlob : Bytes) : String :=
  (opts.metadata.bind Metadata.walletId).getD
    (match opts.keyId with
    | some keyId => toHex keyId
    | none => toHex serverBlob)

def walletShare (opts : DkgOptions) (run : Execution) : WalletShareUpsert where
  walletId := walletId opts run.serverBlob
  appId := opts.metadata.bind Metadata.appId
  userId := opts.metadata.bind Metadata.userId
  deviceId := opts.metadata.bind Metadata.deviceId
  publicKey := some (toHex run.compressed)
  encryptedServerShare := run.encryptShare run.serverBlob

/-- The calls of `runDkg`, for a storage that knows the wallets of `stored`. -/
def storageCalls (stored : String → Bool) (opts : DkgOptions) (run : Execution) :
    List StorageCall :=
  let record := walletShare opts run
  [.getWalletShare record.walletId,
    if stored record.walletId then .updateWalletShare record else .saveWalletShare record]

/-- A call without the protected payload. -/
def StorageCall.outside : StorageCall → StorageCall
  | .getWalletShare walletId => .getWalletShare walletId
  | .saveWalletShare record => .saveWalletShare record.outside
  | .updateWalletShare record => .updateWalletShare record.outside

/-- What the storage sees outside the payloads is a function of the public key, whatever the
share is. -/
def Confidential (opts : DkgOptions) : Prop :=
  ∀ stored, Function.FactorsThrough
    (fun run => (storageCalls stored opts run).map StorageCall.outside) Execution.compressed

/-- The name of the wallet does not come from the share. -/
def Named (opts : DkgOptions) : Prop :=
  (opts.metadata.bind Metadata.walletId).isSome ∨ opts.keyId.isSome

theorem walletId_named {opts : DkgOptions} (h : Named opts) (a b : Bytes) :
    walletId opts a = walletId opts b := by
  rcases h with named | keyed
  · obtain ⟨name, hname⟩ := Option.isSome_iff_exists.mp named
    simp [walletId, hname]
  · obtain ⟨keyId, hkeyId⟩ := Option.isSome_iff_exists.mp keyed
    simp [walletId, hkeyId]

theorem walletId_unnamed {opts : DkgOptions} (h : ¬ Named opts) (blob : Bytes) :
    walletId opts blob = toHex blob := by
  simp only [Named, not_or, Bool.not_eq_true, Option.isSome_eq_false_iff,
    Option.isNone_iff_eq_none] at h
  simp [walletId, h.1, h.2]

theorem confidential_iff_named (opts : DkgOptions) : Confidential opts ↔ Named opts := by
  constructor
  · intro h
    by_contra unnamed
    have same := h (fun _ => false)
      (show (Execution.mk [0] [] fun _ => "").compressed =
        (Execution.mk [1] [] fun _ => "").compressed from rfl)
    simp only [storageCalls, walletShare, walletId_unnamed unnamed, List.map_cons,
      List.cons.injEq, StorageCall.outside, StorageCall.getWalletShare.injEq] at same
    exact absurd (toHex_injective same.1) (by decide)
  · intro named stored a b key
    have name := walletId_named named a.serverBlob b.serverBlob
    have record : (walletShare opts a).outside = (walletShare opts b).outside := by
      simp only [walletShare, WalletShareUpsert.outside, name, key]
    have walletId : (walletShare opts a).walletId = (walletShare opts b).walletId := name
    simp only [storageCalls, List.map_cons, List.map_nil, StorageCall.outside, walletId]
    split_ifs <;> simp only [record]

/-- Without a name, the primary key of the row is the share. -/
theorem row_reveals_share (bufferFrom : String → Bytes) {opts : DkgOptions} (h : ¬ Named opts)
    {a b : Execution}
    (same : (serializeShare bufferFrom (walletShare opts a)).outside =
      (serializeShare bufferFrom (walletShare opts b)).outside) : a.serverBlob = b.serverBlob := by
  have records := (serializeShare_outside_eq_iff bufferFrom _ _).mp same
  have name : walletId opts a.serverBlob = walletId opts b.serverBlob :=
    congrArg WalletShareUpsert.walletId records
  rw [walletId_unnamed h, walletId_unnamed h] at name
  exact toHex_injective name

end CoordinatorNode

/-! ## coordinator-rn -/

namespace CoordinatorRn

inductive Mode where
  | dual
  | deviceOnly
  deriving DecidableEq

/-- The options that are read before the shares are saved: a storage is `none` where the
caller has left it out. `keyId` only reaches `dkgNew`. -/
structure DkgOptions (Storage : Type) where
  storage : Option Storage
  keyId : Option Bytes
  mode : Option Mode

/-- `kpExport` of the two keypairs; the server keypair is there unless the mode is
`device-only`. -/
structure Execution where
  deviceBlob : Bytes
  serverBlob : Bytes

/-- The records that `runDkg` passes to `ShareStorage.save`. -/
def saves {Storage : Type} (opts : DkgOptions Storage) (run : Execution) : List ShareRecord :=
  if opts.storage.isSome then
    let keyId := toHex run.deviceBlob
    ⟨keyId, run.deviceBlob⟩ ::
      if opts.mode ≠ some .deviceOnly then [⟨keyId ++ ":server", run.serverBlob⟩] else []
  else []

/-- The names under which the shares are saved are the same in every execution. -/
def Confidential {Storage : Type} (opts : DkgOptions Storage) : Prop :=
  Function.FactorsThrough (fun run => (saves opts run).map ShareRecord.keyId) fun _ => ()

theorem confidential_iff_without_storage {Storage : Type} (opts : DkgOptions Storage) :
    Confidential opts ↔ opts.storage = none := by
  constructor
  · intro h
    by_contra present
    have configured : opts.storage.isSome := Option.isSome_iff_ne_none.mpr present
    have same := h (a := ⟨[0], []⟩) (b := ⟨[1], []⟩) rfl
    simp only [saves, configured, if_true, List.map_cons, List.cons.injEq] at same
    exact absurd (toHex_injective same.1) (by decide)
  · intro absent a b _
    simp [saves, absent]

/-- With a storage on Android, the names in the preferences are the share. -/
theorem preferences_reveal_share {Storage : Type} {opts : DkgOptions Storage}
    (h : opts.storage.isSome) {a b : Execution}
    (same : (saves opts a).map (fun record => prefKey record.keyId) =
      (saves opts b).map fun record => prefKey record.keyId) : a.deviceBlob = b.deviceBlob := by
  simp only [saves, h, if_true, List.map_cons, List.cons.injEq] at same
  exact prefKey_toHex_injective same.1

end CoordinatorRn

/-! ## Both -/

/-- In coordinator-node the share stays inside the payload if and only if the wallet has a
name of its own, in coordinator-rn if and only if nothing is stored. -/
theorem dkg_confidential_iff {Storage : Type} :
    (∀ opts, CoordinatorNode.Confidential opts ↔ CoordinatorNode.Named opts) ∧
      ∀ opts : CoordinatorRn.DkgOptions Storage,
        CoordinatorRn.Confidential opts ↔ opts.storage = none :=
  ⟨CoordinatorNode.confidential_iff_named, CoordinatorRn.confidential_iff_without_storage⟩

/-- No option but a storage, on either side. -/
theorem share_names_itself :
    ¬ CoordinatorNode.Confidential ⟨none, none⟩ ∧
      ¬ CoordinatorRn.Confidential ⟨some (), none, none⟩ := by
  refine ⟨?_, ?_⟩
  · rw [CoordinatorNode.confidential_iff_named]
    simp [CoordinatorNode.Named]
  · rw [CoordinatorRn.confidential_iff_without_storage]
    simp

end MaanyMpc
