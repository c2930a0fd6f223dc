import MaanyMpc.Coordinator.Stores

/-! # When the storages are interchangeable

Both storages answer the same calls. They give the same answers as long as a share is saved
only where there is none and updated only where there is one, a backup belongs to a stored
share and fits its columns, a number fits its column, a session survives its JSON form, and
nobody asks for a session in the part of a second that Redis cuts off its life. -/

namespace MaanyMpc

variable {V : Type}

structure Storages (V : Type) where
  memory : InMemoryCoordinatorStorage V
  database : PostgresRedisStorage V

/-- What the two storages answer to one call. -/
structure StorageReplies (V : Type) where
  memory : Option (StorageResult V)
  database : Option (StorageResult V)

/-- Both storages get the same calls at the same times. -/
def storages (js : JsonValues V) :
    Transition.Machine (Storages V) (ℤ × StorageOp V) (StorageReplies V) where
  init := ⟨.new, .new⟩
  step s call :=
    let m := s.memory.apply js call.1 call.2
    let d := s.database.apply js call.1 call.2
    some (⟨m.2, d.2⟩, [⟨m.1, d.1⟩])

def Stamped.untimed {α : Type} (stamped : Stamped α) : Stamped α := ⟨stamped.record, 0, 0⟩

def StorageResult.untimed : StorageResult V → StorageResult V
  | .share record => .share (record.map Stamped.untimed)
  | .backup record => .backup (record.map Stamped.untimed)
  | result => result

/-- Both calls fail, or both succeed with the same result up to timestamps. -/
def StorageReplies.Agree (r : StorageReplies V) : Prop :=
  r.memory.map StorageResult.untimed = r.database.map StorageResult.untimed

/-! ## The condition -/

def WalletBackupUpsert.Canonical (record : WalletBackupUpsert) : Prop :=
  Base64.Canonical record.ciphertextLabel ∧ Base64.Canonical record.ciphertextBlob ∧
    Base64.Canonical record.encryptedCoordinatorFragment

/-- The values have the types of their columns. -/
def WalletBackupUpsert.Typed (record : WalletBackupUpsert) : Prop :=
  (record.ciphertextKind.asString?.isSome ∧ record.ciphertextCurve.asString?.isSome ∧
    record.ciphertextScheme.asString?.isSome ∧ record.ciphertextKeyId.asString?.isSome) ∧
    record.ciphertextThreshold.toInt32?.isSome ∧ record.ciphertextShareCount.toInt32?.isSome

/-- What `JSON` makes of a state: a truthy one is not left out, a falsy one is not changed. -/
def JsonValues.Keeps (js : JsonValues V) (state : V) : Prop :=
  if js.truthy state then js.reparse state ≠ some none
  else (js.reparse state).map (·.getD js.undefined) = some state

/-- The calls on which the storages are interchangeable, in the state before the call. -/
def Interchangeable (js : JsonValues V) (s : Storages V) : ℤ × StorageOp V → Prop
  | (_, .saveWalletShare record) =>
    Base64.Canonical record.encryptedServerShare ∧ s.memory.shares record.walletId = none
  | (_, .updateWalletShare record) =>
    Base64.Canonical record.encryptedServerShare ∧ s.memory.shares record.walletId ≠ none
  | (_, .saveSession record) => js.Keeps record.state
  | (now, .getSession sessionId) =>
    ∀ entry ∈ s.database.redis (sessionName sessionId),
      now < entry.record.expiresAt ∧ now < entry.deadline
  | (_, .setNonce _ value) => value.toInt32?.isSome
  | (_, .upsertWalletBackup record) =>
    record.Canonical ∧ record.Typed ∧ s.memory.shares record.walletId ≠ none
  | _ => True

/-! ## The relation between the storages -/

/-- Every table of the database reads back as the map of the same name in memory. -/
structure Mirrors (js : JsonValues V) (s : Storages V) : Prop where
  shares : ∀ walletId, (s.memory.shares walletId).map Stamped.record =
    (s.database.walletShare walletId).map fun row => deserializeShare row.record
  nonces : ∀ walletId, s.memory.nonces walletId =
    (s.database.walletNonce walletId).map fun value : ℤ => .finite value
  backups : ∀ walletId, (s.memory.backups walletId).map Stamped.record =
    (s.database.walletBackup walletId).map fun row => deserializeBackup row.record
  sessions : ∀ sessionId, s.memory.sessions sessionId =
    (s.database.redis (sessionName sessionId)).map RedisEntry.record
  /-- a stored session is a clone already -/
  cloned : ∀ sessionId record, s.memory.sessions sessionId = some record →
    cloneSession js record = some record

theorem mirrors_new (js : JsonValues V) : Mirrors js ⟨.new, .new⟩ where
  shares _ := rfl
  nonces _ := rfl
  backups _ := rfl
  sessions _ := rfl
  cloned _ _ h := by cases h

theorem deserializeBackup_serializeBackup {record : WalletBackupUpsert}
    (canonical : record.Canonical) (typed : record.Typed) :
    ∃ row, serializeBackup record = some row ∧ deserializeBackup row = record := by
  obtain ⟨walletId, kind, curve, scheme, keyId, threshold, shareCount, label, blob, fragment⟩ :=
    record
  obtain ⟨hlabel, hblob, hfragment⟩ : Base64.encode (bufferFromBase64 label) = label ∧
    Base64.encode (bufferFromBase64 blob) = blob ∧
    Base64.encode (bufferFromBase64 fragment) = fragment :=
    ⟨encode_bufferFromBase64 canonical.1, encode_bufferFromBase64 canonical.2.1,
      encode_bufferFromBase64 canonical.2.2⟩
  obtain ⟨⟨hkind, hcurve, hscheme, hkeyId⟩, hthreshold, hshareCount⟩ := typed
  obtain ⟨kindText, hkind⟩ := Option.isSome_iff_exists.mp hkind
  obtain ⟨curveText, hcurve⟩ := Option.isSome_iff_exists.mp hcurve
  obtain ⟨schemeText, hscheme⟩ := Option.isSome_iff_exists.mp hscheme
  obtain ⟨keyIdText, hkeyId⟩ := Option.isSome_iff_exists.mp hkeyId
  obtain ⟨t, hthreshold⟩ := Option.isSome_iff_exists.mp hthreshold
  obtain ⟨n, hshareCount⟩ := Option.isSome_iff_exists.mp hshareCount
  refine ⟨_, by simp only [serializeBackup, hkind, hcurve, hscheme, hkeyId, hthreshold,
    hshareCount, Option.bind_eq_bind, Option.bind_some, Option.pure_def]; rfl, ?_⟩
  simp only [deserializeBackup, hlabel, hblob, hfragment, JsNumber.eq_of_toInt32? hthreshold,
    JsNumber.eq_of_toInt32? hshareCount]
  rw [← Json.eq_of_asString? hkind, ← Json.eq_of_asString? hcurve,
    ← Json.eq_of_asString? hscheme, ← Json.eq_of_asString? hkeyId]

section Step

variable {js : JsonValues V} {s : Storages V}

theorem Mirrors.share_eq_none_iff (mirrors : Mirrors js s) (walletId : String) :
    s.memory.shares walletId = none ↔ s.database.walletShare walletId = none := by
  rw [← Option.map_eq_none_iff (f := Stamped.record), mirrors.shares, Option.map_eq_none_iff]

/-- A write of the same share to both storages. -/
theorem Mirrors.write_share (mirrors : Mirrors js s) {record : WalletShareUpsert}
    (canonical : Base64.Canonical record.encryptedServerShare) (c u c' u' : ℤ) :
    Mirrors js
      ⟨{ s.memory with
         shares := Function.update s.memory.shares record.walletId (some ⟨record, c, u⟩) },
       { s.database with
         walletShare := Function.update s.database.walletShare record.walletId
           (some ⟨serializeShare bufferFromBase64 record, c', u'⟩) }⟩ where
  shares walletId := by
    by_cases same : walletId = record.walletId
    · subst same
      simp [deserializeShare_serializeShare canonical]
    · simpa [Function.update_of_ne same] using mirrors.shares walletId
  nonces := mirrors.nonces
  backups := mirrors.backups
  sessions := mirrors.sessions
  cloned := mirrors.cloned

theorem Mirrors.write_nonce (mirrors : Mirrors js s) (walletId : String) {value : JsNumber}
    {i : ℤ} (column : value.toInt32? = some i) :
    Mirrors js
      ⟨{ s.memory with nonces := Function.update s.memory.nonces walletId (some value) },
       { s.database with
         walletNonce := Function.update s.database.walletNonce walletId (some i) }⟩ where
  shares := mirrors.shares
  nonces other := by
    by_cases same : other = walletId
    · subst same
      simp [JsNumber.eq_of_toInt32? column]
    · simpa [Function.update_of_ne same] using mirrors.nonces other
  backups := mirrors.backups
  sessions := mirrors.sessions
  cloned := mirrors.cloned

theorem Mirrors.write_backup (mirrors : Mirrors js s) {record : WalletBackupUpsert}
    {row : WalletBackupRow} (reads : deserializeBackup row = record) (c u c' u' : ℤ) :
    Mirrors js
      ⟨{ s.memory with
         backups := Function.update s.memory.backups record.walletId (some ⟨record, c, u⟩) },
       { s.database with
         walletBackup := Function.update s.database.walletBackup record.walletId
           (some ⟨row, c', u'⟩) }⟩ where
  shares := mirrors.shares
  nonces := mirrors.nonces
  backups walletId := by
    by_cases same : walletId = record.walletId
    · subst same
      simp [reads]
    · simpa [Function.update_of_ne same] using mirrors.backups walletId
  sessions := mirrors.sessions
  cloned := mirrors.cloned

/-- A session written to both storages, or deleted from both. -/
theorem Mirrors.write_session (mirrors : Mirrors js s) (sessionId : String)
    (entry : Option (RedisEntry V))
    (cloned : ∀ kept, entry = some kept → cloneSession js kept.record = some kept.record) :
    Mirrors js
      ⟨{ s.memory with
         sessions := Function.update s.memory.sessions sessionId
           (entry.map RedisEntry.record) },
       { s.database with
         redis := Function.update s.database.redis (sessionName sessionId) entry }⟩ where
  shares := mirrors.shares
  nonces := mirrors.nonces
  backups := mirrors.backups
  sessions other := by
    by_cases same : other = sessionId
    · subst same
      simp
    · have apart : sessionName other ≠ sessionName sessionId := fun h =>
        same (sessionName_injective h)
      simpa [Function.update_of_ne same, Function.update_of_ne apart] using
        mirrors.sessions other
  cloned other record stored := by
    by_cases same : other = sessionId
    · subst same
      simp only [Function.update_self, Option.map_eq_some_iff] at stored
      obtain ⟨kept, hkept, rfl⟩ := stored
      exact cloned kept hkept
    · simp only [Function.update_of_ne same] at stored
      exact mirrors.cloned other record stored

/-- A state that `JSON` keeps is stored alike: as a clone in memory, read back from Redis. -/
theorem cloneSession_eq_serializeSession {record : SessionRecord V}
    (keeps : js.Keeps record.state) :
    cloneSession js record = serializeSession js record ∧
      ∀ kept, cloneSession js record = some kept → cloneSession js kept = some kept := by
  unfold JsonValues.Keeps at keeps
  by_cases truthy : js.truthy record.state = true
  · rw [if_pos truthy] at keeps
    cases parsed : js.reparse record.state with
    | none => simp [cloneSession, serializeSession, truthy, parsed]
    | some value =>
        cases value with
        | none => exact absurd parsed keeps
        | some state =>
            refine ⟨by simp [cloneSession, serializeSession, truthy, parsed], ?_⟩
            intro kept hkept
            simp only [cloneSession, truthy, parsed, if_true, Option.some.injEq] at hkept
            subst hkept
            simp [cloneSession, js.reparse_reparse _ _ parsed]
  · rw [if_neg truthy] at keeps
    refine ⟨?_, ?_⟩
    · obtain ⟨value, parsed, same⟩ := Option.map_eq_some_iff.mp keeps
      simp [cloneSession, serializeSession, truthy, parsed, same]
    · intro kept hkept
      simp only [cloneSession, truthy] at hkept
      obtain rfl : record = kept := by simpa using hkept
      simp [cloneSession, truthy]

/-- Records that are equal up to the timestamps are equal once these are dropped. -/
theorem map_untimed_eq {α ρ : Type} {a : Option (Stamped α)} {b : Option (Stamped ρ)}
    {f : ρ → α} (same : a.map Stamped.record = b.map fun row => f row.record) :
    a.map Stamped.untimed =
      (b.map fun row => ⟨f row.record, row.createdAt, row.updatedAt⟩).map Stamped.untimed := by
  have stamped := congrArg (Option.map fun record : α => (⟨record, 0, 0⟩ : Stamped α)) same
  rw [Option.map_map, Option.map_map] at stamped
  rw [Option.map_map]
  exact stamped

/-- The storages mirror each other after a call that they have answered alike. -/
def StayMirrored (js : JsonValues V) (s : Storages V) (now : ℤ) (op : StorageOp V) : Prop :=
  Mirrors js ⟨(s.memory.apply js now op).2, (s.database.apply js now op).2⟩ ∧
    StorageReplies.Agree ⟨(s.memory.apply js now op).1, (s.database.apply js now op).1⟩

theorem Mirrors.saveWalletShare (mirrors : Mirrors js s) (now : ℤ) {record : WalletShareUpsert}
    (canonical : Base64.Canonical record.encryptedServerShare)
    (absent : s.memory.shares record.walletId = none) :
    StayMirrored js s now (.saveWalletShare record) := by
  have free := (mirrors.share_eq_none_iff record.walletId).mp absent
  simp only [StayMirrored, InMemoryCoordinatorStorage.apply,
    InMemoryCoordinatorStorage.saveWalletShare, PostgresRedisStorage.apply,
    PostgresRedisStorage.saveWalletShare, free, PostgresRedisStorage.wrote]
  exact ⟨mirrors.write_share canonical .., rfl⟩

theorem Mirrors.updateWalletShare (mirrors : Mirrors js s) (now : ℤ)
    {record : WalletShareUpsert} (canonical : Base64.Canonical record.encryptedServerShare)
    (present : s.memory.shares record.walletId ≠ none) :
    StayMirrored js s now (.updateWalletShare record) := by
  obtain ⟨old, hold⟩ := Option.ne_none_iff_exists'.mp
    (mt (mirrors.share_eq_none_iff record.walletId).mpr present)
  simp only [StayMirrored, InMemoryCoordinatorStorage.apply,
    InMemoryCoordinatorStorage.updateWalletShare, PostgresRedisStorage.apply,
    PostgresRedisStorage.updateWalletShare, hold, PostgresRedisStorage.wrote]
  exact ⟨mirrors.write_share canonical .., rfl⟩

theorem Mirrors.upsertWalletBackup (mirrors : Mirrors js s) (now : ℤ)
    {record : WalletBackupUpsert} (canonical : record.Canonical) (typed : record.Typed)
    (present : s.memory.shares record.walletId ≠ none) :
    StayMirrored js s now (.upsertWalletBackup record) := by
  obtain ⟨row, hrow, reads⟩ := deserializeBackup_serializeBackup canonical typed
  obtain ⟨share, hshare⟩ := Option.ne_none_iff_exists'.mp
    (mt (mirrors.share_eq_none_iff record.walletId).mpr present)
  simp only [StayMirrored, InMemoryCoordinatorStorage.apply,
    InMemoryCoordinatorStorage.upsertWalletBackup, PostgresRedisStorage.apply,
    PostgresRedisStorage.upsertWalletBackup, hshare, hrow, PostgresRedisStorage.wrote]
  exact ⟨mirrors.write_backup reads .., rfl⟩

theorem Mirrors.setNonce (mirrors : Mirrors js s) (now : ℤ) (walletId : String)
    {value : JsNumber} (column : value.toInt32?.isSome) :
    StayMirrored js s now (.setNonce walletId value) := by
  obtain ⟨i, column⟩ := Option.isSome_iff_exists.mp column
  simp only [StayMirrored, InMemoryCoordinatorStorage.apply, PostgresRedisStorage.apply,
    PostgresRedisStorage.setNonce, column, Option.map_some, PostgresRedisStorage.wrote]
  exact ⟨mirrors.write_nonce walletId column, rfl⟩

theorem Mirrors.saveSession (mirrors : Mirrors js s) (now : ℤ) {record : SessionRecord V}
    (keeps : js.Keeps record.state) : StayMirrored js s now (.saveSession record) := by
  obtain ⟨same, cloned⟩ := cloneSession_eq_serializeSession keeps
  cases hclone : cloneSession js record with
  | none =>
      have rejected : serializeSession js record = none := same ▸ hclone
      simp only [StayMirrored, InMemoryCoordinatorStorage.apply,
        InMemoryCoordinatorStorage.saveSession, hclone, PostgresRedisStorage.apply,
        PostgresRedisStorage.saveSession, rejected, Option.map_none, PostgresRedisStorage.wrote]
      exact ⟨mirrors, rfl⟩
  | some kept =>
      have written : serializeSession js record = some kept := same ▸ hclone
      simp only [StayMirrored, InMemoryCoordinatorStorage.apply,
        InMemoryCoordinatorStorage.saveSession, hclone, PostgresRedisStorage.apply,
        PostgresRedisStorage.saveSession, written, Option.map_some, PostgresRedisStorage.wrote]
      refine ⟨mirrors.write_session record.sessionId (some ⟨kept, _⟩) ?_, rfl⟩
      rintro _ ⟨rfl⟩
      exact cloned kept hclone

/-- A session that neither storage has dropped. -/
theorem Mirrors.getSession (mirrors : Mirrors js s) {now : ℤ} {sessionId : String}
    (lives : ∀ entry ∈ s.database.redis (sessionName sessionId),
      now < entry.record.expiresAt ∧ now < entry.deadline) :
    StayMirrored js s now (.getSession sessionId) := by
  have stored := mirrors.sessions sessionId
  cases hentry : s.database.redis (sessionName sessionId) with
  | none =>
      rw [hentry, Option.map_none] at stored
      simp only [StayMirrored, InMemoryCoordinatorStorage.apply,
        InMemoryCoordinatorStorage.getSession, InMemoryCoordinatorStorage.evictExpiredSession,
        stored, PostgresRedisStorage.apply, PostgresRedisStorage.redisGet, hentry,
        Option.filter_none, deserializeSession]
      exact ⟨mirrors, rfl⟩
  | some entry =>
      rw [hentry, Option.map_some] at stored
      obtain ⟨alive, kept⟩ := lives entry hentry
      have cloned := mirrors.cloned sessionId _ stored
      simp only [StayMirrored, InMemoryCoordinatorStorage.apply,
        InMemoryCoordinatorStorage.getSession, InMemoryCoordinatorStorage.evictExpiredSession,
        stored, not_le.mpr alive, if_false, cloned, PostgresRedisStorage.apply,
        PostgresRedisStorage.redisGet, hentry, Option.filter_some, kept, decide_true, if_true,
        deserializeSession]
      exact ⟨mirrors, rfl⟩

/-- A call on which the storages are interchangeable: the replies agree, and the storages
still mirror each other. -/
theorem Mirrors.step {s' : Storages V} {call : ℤ × StorageOp V}
    {emitted : List (StorageReplies V)} (mirrors : Mirrors js s)
    (ok : Interchangeable js s call) (hstep : (storages js).step s call = some (s', emitted)) :
    Mirrors js s' ∧ ∀ r ∈ emitted, r.Agree := by
  obtain ⟨now, op⟩ := call
  simp only [storages, Option.some.injEq, Prod.mk.injEq] at hstep
  obtain ⟨rfl, rfl⟩ := hstep
  simp only [List.mem_singleton, forall_eq]
  cases op with
  | getWalletShare walletId =>
      exact ⟨mirrors, congrArg (fun r => some (StorageResult.share r))
        (map_untimed_eq (mirrors.shares walletId))⟩
  | getWalletBackup walletId =>
      exact ⟨mirrors, congrArg (fun r => some (StorageResult.backup r))
        (map_untimed_eq (mirrors.backups walletId))⟩
  | getNonce walletId =>
      refine ⟨mirrors, ?_⟩
      simp only [StorageReplies.Agree, InMemoryCoordinatorStorage.apply,
        PostgresRedisStorage.apply, mirrors.nonces walletId]
  | saveWalletShare record => exact mirrors.saveWalletShare now ok.1 ok.2
  | updateWalletShare record => exact mirrors.updateWalletShare now ok.1 ok.2
  | upsertWalletBackup record => exact mirrors.upsertWalletBackup now ok.1 ok.2.1 ok.2.2
  | setNonce walletId value => exact mirrors.setNonce now walletId ok
  | saveSession record => exact mirrors.saveSession now ok
  | getSession sessionId => exact mirrors.getSession ok
  | deleteSession sessionId =>
      exact ⟨mirrors.write_session sessionId none (fun kept h => by cases h), rfl⟩

end Step

/-! ## Whole runs -/

/-- Over every sequence of calls that meet the condition the two storages give the same
answers. -/
theorem storages_agree (js : JsonValues V) {taken : List (Storages V × (ℤ × StorageOp V))}
    {replies : List (StorageReplies V)} {s : Storages V}
    (run : (storages js).Run taken replies s)
    (meets : Transition.Machine.Meets (Interchangeable js) taken) : ∀ r ∈ replies, r.Agree := by
  refine run.guarded_events (Interchangeable js) (Mirrors js) StorageReplies.Agree
    (mirrors_new js) ?_ meets
  intro s call s' emitted mirrors ok hstep
  exact mirrors.step ok hstep

/-! ## Two saves -/

/-- The calls the storages are meant for: fields that are what they decode to, values of the
declared types, and sessions within their life. -/
def Intended (s : Storages V) : ℤ × StorageOp V → Prop
  | (_, .saveWalletShare record) | (_, .updateWalletShare record) =>
    Base64.Canonical record.encryptedServerShare
  | (now, .getSession sessionId) =>
    ∀ entry ∈ s.database.redis (sessionName sessionId), now < entry.record.expiresAt
  | (_, .setNonce _ value) => value.toInt32?.isSome
  | (_, .upsertWalletBackup record) => record.Canonical ∧ record.Typed
  | _ => True

def sampleWalletShare : WalletShareUpsert := ⟨"w", none, none, none, some "02ab", "AQID"⟩

theorem canonical_sampleWalletShare : Base64.Canonical sampleWalletShare.encryptedServerShare := by
  decide +kernel

/-- The second save of a wallet succeeds in memory and fails on the primary key. -/
theorem second_save_disagrees :
    ¬ ∀ taken replies s, (storages noValues).Run taken replies s →
      Transition.Machine.Meets Intended taken → ∀ r ∈ replies, r.Agree := by
  intro agree
  have first := (Transition.Machine.Run.start (M := storages noValues)).next
    (show (storages noValues).step (storages noValues).init
      (0, .saveWalletShare sampleWalletShare) = some _ from rfl)
  have run := first.next
    (show (storages noValues).step _ (1, .saveWalletShare sampleWalletShare) = some _ from rfl)
  have replies := agree _ _ _ run ((Transition.Machine.meets_append_singleton ..).mpr
    ⟨(Transition.Machine.meets_append_singleton ..).mpr
      ⟨Transition.Machine.meets_nil _, canonical_sampleWalletShare⟩, canonical_sampleWalletShare⟩)
  have second : (⟨some .done, none⟩ : StorageReplies Unit).Agree :=
    replies _ (List.mem_append_right _ (List.mem_singleton_self _))
  cases second

/-- A wallet that is saved once and read back. -/
theorem storages_agree_saved :
    (⟨some (.share (some ⟨sampleWalletShare, 0, 0⟩)),
      some (.share (some ⟨sampleWalletShare, 0, 0⟩))⟩ : StorageReplies Unit).Agree := by
  have first := (Transition.Machine.Run.start (M := storages noValues)).next
    (show (storages noValues).step (storages noValues).init
      (0, .saveWalletShare sampleWalletShare) = some _ from rfl)
  have run := first.next
    (show (storages noValues).step _ (1, .getWalletShare "w") = some _ from rfl)
  have replies := storages_agree noValues run ((Transition.Machine.meets_append_singleton ..).mpr
    ⟨(Transition.Machine.meets_append_singleton ..).mpr
      ⟨Transition.Machine.meets_nil _, canonical_sampleWalletShare, rfl⟩, trivial⟩)
  exact replies _ (List.mem_append_right _ (List.mem_singleton_self _))

end MaanyMpc
