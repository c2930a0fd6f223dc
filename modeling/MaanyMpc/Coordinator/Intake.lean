import MaanyMpc.Coordinator.Interchange
import MaanyMpc.Coordinator.Server

/-! # What reaches the storage

The server writes in one place, when a backup is encrypted. Every backup that waits for that
was taken in from one frame, under the session that was registered at that moment. -/

namespace MaanyMpc

variable {σ V : Type} {opts : ServerOptions σ V} {s s' : Server σ} {a : ServerAction}
  {events : List ServerEvent}

/-! ## Frames that are taken in -/

/-- In this state the action delivers the frame that becomes the task. -/
structure TakesIn (opts : ServerOptions σ V) (s : Server σ) (a : ServerAction) (t : BackupTask)
    (raw : Bytes) (c : Connection) (key : SessionKey) (ctx : CtxId) (state : SessionState) :
    Prop where
  message : a = .message t.socket raw
  connection : s.connections t.socket = some c
  transport : c.transport = some (key, ctx)
  parsed : opts.parse raw = some t.payload
  type : isText (t.payload.get? "type") "backup-share" = true
  session : s.sessions key = some state
  draft : processBackupShare (some state.intent.keyId) t.payload = .ok t.draft

/-- The task came from a frame of a step of the run. -/
def Originates (opts : ServerOptions σ V) (taken : List (Server σ × ServerAction))
    (t : BackupTask) : Prop :=
  ∃ p ∈ taken, ∃ raw c key ctx state, TakesIn opts p.1 p.2 t raw c key ctx state

theorem Originates.mono {taken : List (Server σ × ServerAction)} {t : BackupTask}
    (h : Originates opts taken t) (p : Server σ × ServerAction) :
    Originates opts (taken ++ [p]) t := by
  obtain ⟨q, hq, origin⟩ := h
  exact ⟨q, List.mem_append_left _ hq, origin⟩

/-! ## One step -/

/-- Neither the backups nor the storage change, and no backup is acknowledged. -/
structure Untouched (s : Server σ) (r : Server σ × List ServerEvent) : Prop where
  tasks : r.1.tasks = s.tasks
  storage : r.1.storage = s.storage
  quiet : ∀ socket keyId, .backupAck socket keyId .ok ∉ r.2

namespace Server

theorem cleanupSession_untouched (s : Server σ) (key : SessionKey) :
    Untouched s (s.cleanupSession key) := by
  unfold cleanupSession
  split
  · exact ⟨rfl, rfl, by simp⟩
  · simp only
    split <;> exact ⟨rfl, rfl, by simp⟩

theorem attachDevice_untouched (s : Server σ) (key : SessionKey) (state : SessionState)
    (socket : SocketId) (hello : Json) :
    Untouched s (s.attachDevice key state socket hello) := by
  unfold attachDevice
  simp only
  split <;> exact ⟨rfl, rfl, by simp⟩

theorem registerParticipant_untouched (s : Server σ) (key : SessionKey) (socket : SocketId)
    (hello : Json) : Untouched s (s.registerParticipant key socket hello) := by
  unfold registerParticipant
  split
  · exact attachDevice_untouched ..
  · simp only
    split
    · exact ⟨rfl, rfl, by simp⟩
    · obtain ⟨tasks, storage, quiet⟩ := attachDevice_untouched { s with contexts := s.contexts + 1 }
        key ⟨.new, s.contexts, none, _, hello.get? "token", none⟩ socket hello
      exact ⟨tasks, storage, by simpa using quiet⟩

theorem onMessage_untouched (opts : ServerOptions σ V) (s : Server σ) (socket : SocketId)
    (raw : Bytes) : Untouched s (s.onMessage opts socket raw) := by
  unfold onMessage
  split
  · exact ⟨rfl, rfl, by simp⟩
  · split_ifs
    · exact ⟨rfl, rfl, by simp⟩
    · split
      · exact ⟨rfl, rfl, by simp⟩
      · obtain ⟨tasks, storage, quiet⟩ := registerParticipant_untouched
          (({ s with frames := s.frames + 1 } : Server σ).updateConnection socket fun c =>
            { c with listening := false }) _ socket _
        exact ⟨tasks, storage, quiet⟩
    · exact ⟨rfl, rfl, by simp⟩

/-- A closing socket leaves its transport, and then its session is cleaned up. -/
theorem onClose_unbinds (s : Server σ) (socket : SocketId) (c : Connection) :
    ∃ s₁ : Server σ, s₁.tasks = s.tasks ∧ s₁.storage = s.storage ∧
      s.onClose socket c = c.registered.elim (s₁, []) s₁.cleanupSession := by
  unfold onClose
  cases c.registered <;> refine ⟨_, ?_, ?_, rfl⟩
  all_goals
    split
    · rfl
    · split <;> rfl

theorem onClose_untouched (s : Server σ) (socket : SocketId) (c : Connection) :
    Untouched s (s.onClose socket c) := by
  obtain ⟨s₁, tasks, storage, closed⟩ := onClose_unbinds s socket c
  rw [closed]
  cases c.registered with
  | none => exact ⟨tasks, storage, by simp⟩
  | some key =>
      obtain ⟨tasks', storage', quiet⟩ := cleanupSession_untouched s₁ key
      exact ⟨tasks'.trans tasks, storage'.trans storage, quiet⟩

/-- A frame for a transport is taken in, or changes nothing here. -/
theorem onTransportMessage_cases (opts : ServerOptions σ V) (s : Server σ) (socket : SocketId)
    (key : SessionKey) (ctx : CtxId) (raw : Bytes) :
    Untouched s (s.onTransportMessage opts socket key ctx raw) ∨
      ∃ payload state draft, opts.parse raw = some payload ∧
        isText (payload.get? "type") "backup-share" = true ∧ s.sessions key = some state ∧
        processBackupShare (some state.intent.keyId) payload = .ok draft ∧
        s.onTransportMessage opts socket key ctx raw =
          ({ s with tasks := s.tasks ++ [⟨socket, payload, draft⟩] }, []) := by
  unfold onTransportMessage
  simp only
  split
  · left
    split <;> exact ⟨rfl, rfl, by simp⟩
  next payload found =>
    obtain ⟨parsed, type⟩ := Option.filter_eq_some_iff.mp found
    split
    · exact .inl ⟨rfl, rfl, by simp⟩
    next draft accepted =>
      cases session : s.sessions key with
      | none => simp [session, processBackupShare, throw, throwThe, MonadExceptOf.throw] at accepted
      | some state =>
          rw [session] at accepted
          exact .inr ⟨payload, state, draft, parsed, type, rfl, accepted, rfl⟩

/-- What a step does to the backups and to the storage: nothing, or it takes a frame in, or it
completes a task. -/
theorem step_backups (h : Server.step opts s a = some (s', events)) :
    Untouched s (s', events) ∨
      (∃ t raw c key ctx state, TakesIn opts s a t raw c key ctx state ∧
        s' = { s with tasks := s.tasks ++ [t] } ∧ events = []) ∨
      ∃ task now iv t, a = .complete task now iv ∧ s.tasks[task]? = some t ∧
        (s', events) = { s with tasks := s.tasks.eraseIdx task }.complete opts t now iv := by
  cases a with
  | connection socket =>
      rw [step_connection h]
      exact .inl ⟨rfl, rfl, by simp⟩
  | message socket raw =>
      rcases step_message h with hello | idle | ⟨c, key, ctx, connection, transport, frame⟩
      · rw [hello]
        exact .inl (onMessage_untouched opts s socket raw)
      · rw [idle]
        exact .inl ⟨rfl, rfl, by simp⟩
      · rcases onTransportMessage_cases opts s socket key ctx raw with
          same | ⟨payload, state, draft, parsed, type, session, accepted, added⟩
        · rw [frame]
          exact .inl same
        · obtain ⟨rfl, rfl⟩ := Prod.mk.inj (frame.trans added)
          exact .inr (.inl ⟨⟨socket, payload, draft⟩, raw, c, key, ctx, state,
            ⟨rfl, connection, transport, parsed, type, session, accepted⟩, rfl, rfl⟩)
  | close socket =>
      obtain ⟨c, _, closed⟩ := step_close h
      rw [closed]
      exact .inl (onClose_untouched s socket c)
  | callClose socket =>
      obtain ⟨key, _, closed⟩ := step_callClose h
      rw [closed]
      exact .inl (cleanupSession_untouched s key)
  | complete task now iv =>
      obtain ⟨t, found, completed⟩ := step_complete h
      exact .inr (.inr ⟨task, now, iv, t, rfl, found, completed⟩)

theorem complete_tasks (opts : ServerOptions σ V) (s : Server σ) (t : BackupTask) (now : ℤ)
    (iv : Option (Vector UInt8 12)) : (s.complete opts t now iv).1.tasks = s.tasks := by
  unfold complete
  simp only
  split
  · rfl
  · split <;> rfl

/-- A step adds the task of a frame, if any. -/
theorem step_tasks (h : Server.step opts s a = some (s', events)) {t : BackupTask}
    (ht : t ∈ s'.tasks) :
    t ∈ s.tasks ∨ ∃ raw c key ctx state, TakesIn opts s a t raw c key ctx state := by
  rcases step_backups h with
    same | ⟨t', raw, c, key, ctx, state, origin, rfl, _⟩ | ⟨task, now, iv, t', _, _, completed⟩
  · exact .inl (same.tasks ▸ ht)
  · rcases List.mem_append.mp ht with ht | ht
    · exact .inl ht
    · rw [List.mem_singleton.mp ht]
      exact .inr ⟨raw, c, key, ctx, state, origin⟩
  · have tasks : s'.tasks = s.tasks.eraseIdx task :=
      (congrArg (fun r => r.1.tasks) completed).trans (complete_tasks ..)
    rw [tasks] at ht
    exact .inl (List.mem_of_mem_eraseIdx ht)

/-- The record that the storage gets, once the encryptor has answered. -/
def upsert (opts : ServerOptions σ V) (t : BackupTask) (iv : Vector UInt8 12) :
    WalletBackupUpsert :=
  t.draft.record (opts.encryptor.encryptShare iv t.draft.fragment)

/-- A step leaves the storage as it is, or it hands the record of a waiting task to it. The
device hears `ok` when the storage has taken it. -/
theorem step_storage (h : Server.step opts s a = some (s', events)) :
    (s'.storage = s.storage ∧ ∀ socket keyId, .backupAck socket keyId .ok ∉ events) ∨
      ∃ t ∈ s.tasks, ∃ now iv, s'.storage =
          (opts.storage.apply s.storage now (.upsertWalletBackup (upsert opts t iv))).2 ∧
        ∀ socket keyId, .backupAck socket keyId .ok ∈ events → socket = t.socket ∧
          (opts.storage.apply s.storage now (.upsertWalletBackup (upsert opts t iv))).1.isSome := by
  rcases step_backups h with
    same | ⟨t, raw, c, key, ctx, state, _, rfl, rfl⟩ | ⟨task, now, iv, t, rfl, found, completed⟩
  · exact .inl ⟨same.storage, same.quiet⟩
  · exact .inl ⟨rfl, by simp⟩
  · cases iv with
    | none =>
        obtain ⟨rfl, rfl⟩ := Prod.mk.inj completed
        exact .inl ⟨rfl, by simp⟩
    | some iv =>
        refine .inr ⟨t, List.mem_of_getElem? found, now, iv, ?_⟩
        rcases answer : opts.storage.apply s.storage now (.upsertWalletBackup (upsert opts t iv))
          with ⟨result, storage⟩
        rw [upsert] at answer
        cases result with
        | none =>
            simp only [complete, answer, Prod.mk.injEq] at completed
            obtain ⟨rfl, rfl⟩ := completed
            exact ⟨rfl, by simp⟩
        | some result =>
            simp only [complete, answer, Prod.mk.injEq] at completed
            obtain ⟨rfl, rfl⟩ := completed
            exact ⟨rfl, fun socket keyId ack => by simp_all⟩

end Server

/-! ## Runs -/

theorem run_originates {storage : σ} {taken : List (Server σ × ServerAction)}
    (run : (serverMachine opts storage).Run taken events s) :
    ∀ t ∈ s.tasks, Originates opts taken t := by
  refine run.history_invariant (fun taken _ s => ∀ t ∈ s.tasks, Originates opts taken t) ?_ ?_
  · intro t ht
    cases ht
  · intro taken events s a s' emitted _ ih hstep t ht
    rcases Server.step_tasks hstep ht with ht | ⟨raw, c, key, ctx, state, origin⟩
    · exact (ih t ht).mono (s, a)
    · exact ⟨(s, a), List.mem_append_right _ (List.mem_singleton_self _), raw, c, key, ctx, state,
        origin⟩

/-! ## The storages -/

/-- The storages of the package. -/
inductive Shipped : {σ V : Type} → CoordinatorStorage σ V → Prop where
  | memory {V : Type} (js : JsonValues V) : Shipped (memoryStorage js)
  | database {V : Type} (js : JsonValues V) : Shipped (databaseStorage js)

/-- An upsert does not change the backups of other wallets. -/
theorem Shipped.upsert_apart {storage : CoordinatorStorage σ V} (h : Shipped storage) (st : σ)
    (now now' : ℤ) (record : WalletBackupUpsert) {walletId : String}
    (other : walletId ≠ record.walletId) :
    (storage.apply (storage.apply st now (.upsertWalletBackup record)).2 now'
        (.getWalletBackup walletId)).1 =
      (storage.apply st now' (.getWalletBackup walletId)).1 := by
  cases h with
  | memory js =>
      simp [memoryStorage, InMemoryCoordinatorStorage.apply,
        InMemoryCoordinatorStorage.upsertWalletBackup, Function.update_of_ne other]
  | database js =>
      simp only [databaseStorage, PostgresRedisStorage.apply,
        PostgresRedisStorage.upsertWalletBackup]
      split
      · simp [PostgresRedisStorage.wrote, Function.update_of_ne other]
      · rfl

theorem typed_of_serializeBackup {record : WalletBackupUpsert} {row : WalletBackupRow}
    (h : serializeBackup record = some row) : record.Typed := by
  simp only [serializeBackup, Option.bind_eq_bind, Option.bind_eq_some_iff] at h
  obtain ⟨kind, hkind, curve, hcurve, scheme, hscheme, keyId, hkeyId, threshold, hthreshold,
    shareCount, hshareCount, _⟩ := h
  simp [WalletBackupUpsert.Typed, hkind, hcurve, hscheme, hkeyId, hthreshold, hshareCount]

/-- A record that was taken is read back as it was given. -/
theorem Shipped.upsert_stores {storage : CoordinatorStorage σ V} (h : Shipped storage) {st : σ}
    {now : ℤ} {record : WalletBackupUpsert} (canonical : record.Canonical)
    (accepted : (storage.apply st now (.upsertWalletBackup record)).1.isSome) :
    ∃ stamped : Stamped WalletBackupUpsert, stamped.record = record ∧
      ∀ now', (storage.apply (storage.apply st now (.upsertWalletBackup record)).2 now'
        (.getWalletBackup record.walletId)).1 = some (.backup (some stamped)) := by
  cases h with
  | memory js =>
      refine ⟨⟨record, ((st.backups record.walletId).map Stamped.createdAt).getD now, now⟩, rfl, ?_⟩
      intro now'
      simp [memoryStorage, InMemoryCoordinatorStorage.apply,
        InMemoryCoordinatorStorage.upsertWalletBackup]
  | database js =>
      simp only [databaseStorage, PostgresRedisStorage.apply,
        PostgresRedisStorage.upsertWalletBackup] at accepted ⊢
      split at accepted
      next share row _ serialized =>
        obtain ⟨row', serialized', same⟩ :=
          deserializeBackup_serializeBackup canonical (typed_of_serializeBackup serialized)
        obtain rfl : row = row' := by simpa [serialized] using serialized'
        refine ⟨⟨record, ((st.walletBackup record.walletId).map Stamped.createdAt).getD now, now⟩,
          rfl, ?_⟩
        intro now'
        simp [PostgresRedisStorage.wrote, *]
      · cases accepted

/-! ## A run with one backup -/

def sampleBackupObject : Json :=
  .object [("kind", .string "device"), ("curve", .string "secp256k1"),
    ("scheme", .string "ecdsa-2p"), ("keyId", .string "k"), ("threshold", .number (.finite 2)),
    ("shareCount", .number (.finite 1)), ("label", .string ""), ("blob", .string "00")]

/-- A backup of the wallet `w`. -/
def sampleBackup : Json :=
  .object [("type", .string "backup-share"), ("walletId", .string "w"), ("fragment", .string "01"),
    ("ciphertext", sampleBackupObject)]

def sampleBackupText : Bytes :=
  utf8 <| "\x7b\"type\":\"backup-share\",\"walletId\":\"w\",\"fragment\":\"01\",\"ciphertext\":" ++
    "\x7b\"kind\":\"device\",\"curve\":\"secp256k1\",\"scheme\":\"ecdsa-2p\",\"keyId\":\"k\"," ++
    "\"threshold\":2,\"shareCount\":1,\"label\":\"\",\"blob\":\"00\"\x7d\x7d"

/-- A hello of a device for the key `keyId`. -/
def sampleKeyHello (keyId : String) : Json :=
  .object [("type", .string "hello"), ("role", .string "device"), ("sessionId", .string "s"),
    ("keyId", .string keyId)]

def sampleKeyHelloText (keyId : String) : Bytes :=
  utf8 ("\x7b\"type\":\"hello\",\"role\":\"device\",\"sessionId\":\"s\",\"keyId\":\"" ++ keyId ++
    "\"\x7d")

def sampleBackupOptions (keyId : String) :
    ServerOptions (InMemoryCoordinatorStorage Unit) Unit where
  parse raw :=
    if raw = sampleBackupText then some sampleBackup
    else if raw = sampleKeyHelloText keyId then some (sampleKeyHello keyId)
    else none
  storage := memoryStorage noValues
  encryptor := PlaintextKeyEncryptor

def sampleDraft : BackupDraft :=
  ⟨"w", [1], ⟨.string "device", .string "secp256k1", .string "ecdsa-2p", .string "k", .finite 2,
    .finite 1, [], [0]⟩⟩

theorem processBackupShare_sampleBackup (keyId : Option Json) :
    processBackupShare (some keyId) sampleBackup = .ok sampleDraft := by
  have wallet : trim "w" = "w" := by decide +kernel
  have fragment : decodeBinary (some (.string "01")) none "fragment" = .ok [1] := by
    decide +kernel
  have label : decodeBinary (some (.string "")) none "ciphertext.label" = .ok [] := by
    decide +kernel
  have blob : decodeBinary (some (.string "00")) none "ciphertext.blob" = .ok [0] := by
    decide +kernel
  rw [processBackupShare_eq_ok_iff, walletIdentifier_eq_ok_iff]
  refine ⟨⟨"w", rfl, wallet, by decide⟩, rfl, fragment, sampleBackupObject, rfl, ?_⟩
  rw [parseCiphertext_eq_ok_iff]
  exact ⟨⟨rfl, rfl⟩, ⟨rfl, rfl⟩, ⟨rfl, rfl⟩, ⟨rfl, rfl⟩, rfl, rfl, label, blob⟩

/-- Socket 0 is connected. -/
def sampleConnected : Server (InMemoryCoordinatorStorage Unit) :=
  { Server.init .new with
    connections := Function.update (fun _ => none) 0 (some ⟨true, false, true, none, none⟩) }

/-- What the hello makes of it. -/
def sampleGreeted (keyId : String) : Server (InMemoryCoordinatorStorage Unit) × List ServerEvent :=
  sampleConnected.onMessage (sampleBackupOptions keyId) 0 (sampleKeyHelloText keyId)

/-- The session that the hello opens. -/
def sampleSession (keyId : String) : SessionState :=
  ⟨WebSocketTransport.new.bindSocket .device 0, 0, some 0, .dkg (some (.string keyId)) none, none,
    some 0⟩

/-- The backup has been handed in, and the encryptor is called. -/
def sampleWaiting (keyId : String) : Server (InMemoryCoordinatorStorage Unit) :=
  { (sampleGreeted keyId).1 with tasks := [⟨0, sampleBackup, sampleDraft⟩] }

def sampleTaken (keyId : String) :
    List (Server (InMemoryCoordinatorStorage Unit) × ServerAction) :=
  [(.init .new, .connection 0), (sampleConnected, .message 0 (sampleKeyHelloText keyId)),
    ((sampleGreeted keyId).1, .message 0 sampleBackupText)]

/-- The record of the backup. -/
def sampleRecord : WalletBackupUpsert :=
  sampleDraft.record (PlaintextKeyEncryptor.encryptShare (Vector.replicate 12 0) [1])

section SampleRun

variable {keyId : String} (other : sampleKeyHelloText keyId ≠ sampleBackupText)
include other

theorem sampleGreeted_facts :
    (sampleGreeted keyId).1.connections 0 =
        some ⟨true, false, false, some (.string "s", 0), some (.string "s")⟩ ∧
      (sampleGreeted keyId).1.sessions (.string "s") = some (sampleSession keyId) ∧
      (sampleGreeted keyId).1.tasks = [] ∧ (sampleGreeted keyId).1.storage = .new := by
  have hello : (sampleBackupOptions keyId).parse (sampleKeyHelloText keyId) =
      some (sampleKeyHello keyId) := by
    simp [sampleBackupOptions, other]
  unfold sampleGreeted
  rw [Server.onMessage, hello]
  exact ⟨rfl, rfl, rfl, rfl⟩

/-- A device says hello for the key and hands in the backup of `w`. -/
theorem sample_run : ∃ events, (serverMachine (sampleBackupOptions keyId) .new).Run
    (sampleTaken keyId) events (sampleWaiting keyId) := by
  obtain ⟨attached, session, tasks, _⟩ := sampleGreeted_facts other
  have connected : (serverMachine (sampleBackupOptions keyId) .new).Run
      [(Server.init .new, .connection 0)] [] sampleConnected :=
    Transition.Machine.Run.start.next rfl
  have greeted := connected.next (show (serverMachine (sampleBackupOptions keyId) .new).step
    sampleConnected (.message 0 (sampleKeyHelloText keyId)) =
      some ((sampleGreeted keyId).1, (sampleGreeted keyId).2) from rfl)
  have backup : (sampleBackupOptions keyId).parse sampleBackupText = some sampleBackup := by
    simp [sampleBackupOptions]
  have payload : ((sampleBackupOptions keyId).parse sampleBackupText).filter (fun payload =>
      isText (payload.get? "type") "backup-share") = some sampleBackup := by
    rw [backup]
    rfl
  have accepted : processBackupShare ((some (sampleSession keyId)).map fun state =>
      state.intent.keyId) sampleBackup = .ok sampleDraft :=
    processBackupShare_sampleBackup (some (.string keyId))
  have delivered : (serverMachine (sampleBackupOptions keyId) .new).step (sampleGreeted keyId).1
      (.message 0 sampleBackupText) = some (sampleWaiting keyId, []) := by
    simp only [serverMachine, Server.step, attached, Bool.false_eq_true, if_false,
      Server.onTransportMessage, payload, session, accepted, tasks, List.nil_append]
    rfl
  exact ⟨_, greeted.next delivered⟩

/-- The backup is the only frame of the run that is taken in. -/
theorem sample_takesIn {p : Server (InMemoryCoordinatorStorage Unit) × ServerAction}
    (hp : p ∈ sampleTaken keyId) {t : BackupTask} {raw : Bytes} {c : Connection}
    {key : SessionKey} {ctx : CtxId} {state : SessionState}
    (h : TakesIn (sampleBackupOptions keyId) p.1 p.2 t raw c key ctx state) :
    state = sampleSession keyId ∧ ctx = 0 ∧ t.draft = sampleDraft := by
  obtain ⟨attached, session, _⟩ := sampleGreeted_facts other
  obtain ⟨socket, payload, draft⟩ := t
  obtain ⟨message, connection, transport, parsed, _, known, accepted⟩ := h
  simp only [sampleTaken, List.mem_cons, List.not_mem_nil, or_false] at hp
  rcases hp with rfl | rfl | rfl
  · cases message
  · cases message
    cases connection
    cases transport
  · cases message
    obtain rfl := Option.some.inj (attached.symm.trans connection)
    cases transport
    obtain rfl := Option.some.inj (session.symm.trans known)
    have backup : (sampleBackupOptions keyId).parse sampleBackupText = some sampleBackup := by
      simp [sampleBackupOptions]
    obtain rfl := Option.some.inj (backup.symm.trans parsed)
    rw [processBackupShare_sampleBackup] at accepted
    exact ⟨rfl, rfl, (Except.ok.inj accepted).symm⟩

/-- The encryptor answers, and the record is stored. -/
theorem sample_stored : ∃ s', Server.step (sampleBackupOptions keyId) (sampleWaiting keyId)
      (.complete 0 1 (some (Vector.replicate 12 0))) =
        some (s', [.backupAck 0 (some (.string "w")) .ok]) ∧
    ((memoryStorage noValues).apply s'.storage 2 (.getWalletBackup "w")).1 =
      some (.backup (some ⟨sampleRecord, 1, 1⟩)) ∧
    ((memoryStorage noValues).apply (sampleWaiting keyId).storage 2 (.getWalletBackup "w")).1 =
      some (.backup none) := by
  obtain ⟨_, _, _, storage⟩ := sampleGreeted_facts other
  refine ⟨_, rfl, ?_, by rw [sampleWaiting, storage]; rfl⟩
  show some (StorageResult.backup (Function.update (sampleGreeted keyId).1.storage.backups "w"
    (some ⟨sampleRecord, (((sampleGreeted keyId).1.storage.backups "w").map
      Stamped.createdAt).getD 1, 1⟩) "w")) = _
  rw [storage]
  rfl

end SampleRun

end MaanyMpc
