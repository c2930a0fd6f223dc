import MaanyMpc.Coordinator.Intake

/-! # Backups of different wallets

The wallet of a record is what the frame says it is. Sessions only stay out of each other's
backups as long as every frame that is fit to be stored says what its own session says. -/

namespace MaanyMpc

variable {σ V : Type} {opts : ServerOptions σ V} {s s' : Server σ} {a : ServerAction}
  {events : List ServerEvent}

/-! ## What a frame says -/

/-- The fragment and the ciphertext of the payload can be decoded. -/
def FitToStore (payload : Json) : Prop :=
  truthy? (fragmentSource payload) = true ∧
    (∃ fragment, decodeBinary (fragmentSource payload) (payload.get? "fragmentEncoding")
      "fragment" = .ok fragment) ∧
    ∃ object ciphertext, (payload.get? "ciphertext").filter Json.truthy = some object ∧
      parseCiphertext object = .ok ciphertext

/-- The wallet that is named: by the `walletId`, else by the `keyId`, else by the intent of the
session, and without the white space around it. -/
def Names (payload : Json) (intentKeyId : Option Json) (walletId : String) : Prop :=
  ∃ text, coalesce (coalesce (payload.get? "walletId") (payload.get? "keyId")) intentKeyId =
    some (.string text) ∧ trim text = walletId ∧ walletId ≠ ""

theorem processBackupShare_accepts_iff {payload : Json} {intentKeyId : Option Json}
    {walletId : String} :
    (∃ draft, processBackupShare (some intentKeyId) payload = .ok draft ∧
        draft.walletId = walletId) ↔
      FitToStore payload ∧ Names payload intentKeyId walletId := by
  simp only [processBackupShare_eq_ok_iff, walletIdentifier_eq_ok_iff]
  constructor
  · rintro ⟨draft, ⟨names, truthy, fragment, object, found, parsed⟩, rfl⟩
    exact ⟨⟨truthy, ⟨_, fragment⟩, object, _, found, parsed⟩, names⟩
  · rintro ⟨⟨truthy, ⟨fragment, hfragment⟩, object, ciphertext, found, parsed⟩, names⟩
    exact ⟨⟨walletId, fragment, ciphertext⟩, ⟨names, truthy, hfragment, object, found, parsed⟩, rfl⟩

/-! ## Changes of a backup -/

/-- A backup only changes when the record of a task of its wallet is stored. -/
theorem changed_by_task (shipped : Shipped opts.storage) {storage : σ}
    {taken : List (Server σ × ServerAction)} (run : (serverMachine opts storage).Run taken events s)
    {emitted : List ServerEvent} (hstep : Server.step opts s a = some (s', emitted))
    {walletId : String} {now : ℤ}
    (changed : (opts.storage.apply s'.storage now (.getWalletBackup walletId)).1 ≠
      (opts.storage.apply s.storage now (.getWalletBackup walletId)).1) :
    ∃ t ∈ s.tasks, t.draft.walletId = walletId ∧ Originates opts taken t ∧
      ∃ now' iv, s'.storage = (opts.storage.apply s.storage now'
        (.upsertWalletBackup (Server.upsert opts t iv))).2 := by
  rcases Server.step_storage hstep with ⟨same, _⟩ | ⟨t, ht, now', iv, stored, _⟩
  · rw [same] at changed
    exact absurd rfl changed
  · refine ⟨t, ht, ?_, run_originates run t ht, now', iv, stored⟩
    by_contra other
    rw [stored] at changed
    exact changed (shipped.upsert_apart s.storage now' now _ (Ne.symm other))

/-- Every change of the backup of a wallet is the effect of a frame that names the wallet, and
that is fit to be stored. -/
theorem backups_change_as_named (shipped : Shipped opts.storage) {storage : σ}
    {taken : List (Server σ × ServerAction)} (run : (serverMachine opts storage).Run taken events s)
    {emitted : List ServerEvent} (hstep : Server.step opts s a = some (s', emitted))
    {walletId : String} {now : ℤ}
    (changed : (opts.storage.apply s'.storage now (.getWalletBackup walletId)).1 ≠
      (opts.storage.apply s.storage now (.getWalletBackup walletId)).1) :
    ∃ t ∈ s.tasks,
      (∃ now' iv, s'.storage = (opts.storage.apply s.storage now'
        (.upsertWalletBackup (Server.upsert opts t iv))).2) ∧
      ∃ p ∈ taken, ∃ raw c key ctx state, TakesIn opts p.1 p.2 t raw c key ctx state ∧
        FitToStore t.payload ∧ Names t.payload state.intent.keyId walletId := by
  obtain ⟨t, ht, rfl, ⟨p, hp, raw, c, key, ctx, state, origin⟩, stored⟩ :=
    changed_by_task shipped run hstep changed
  exact ⟨t, ht, stored, p, hp, raw, c, key, ctx, state, origin,
    processBackupShare_accepts_iff.mp ⟨t.draft, origin.draft, rfl⟩⟩

/-- A device with the key `v` hands in a backup for `w`, and the server stores it. -/
theorem foreign_backup_stored :
    ¬ ∀ taken events s, (serverMachine (sampleBackupOptions "v") .new).Run taken events s →
      ∀ a s' emitted, Server.step (sampleBackupOptions "v") s a = some (s', emitted) →
      ∀ walletId now,
        ((memoryStorage noValues).apply s'.storage now (.getWalletBackup walletId)).1 ≠
          ((memoryStorage noValues).apply s.storage now (.getWalletBackup walletId)).1 →
        ∃ p ∈ taken, ∃ t raw c key ctx state,
          TakesIn (sampleBackupOptions "v") p.1 p.2 t raw c key ctx state ∧
            state.intent.keyId = some (.string walletId) := by
  intro isolated
  have other : sampleKeyHelloText "v" ≠ sampleBackupText := by decide +kernel
  obtain ⟨events, run⟩ := sample_run other
  obtain ⟨s', stored, after, before⟩ := sample_stored other
  obtain ⟨p, hp, t, raw, c, key, ctx, state, origin, intent⟩ :=
    isolated _ _ _ run _ _ _ stored "w" 2 (by rw [after, before]; simp)
  obtain ⟨rfl, _, _⟩ := sample_takesIn other hp origin
  simp [sampleSession, SessionIntent.keyId] at intent

/-- The device of the key `v` does the same to the backup of `w`. -/
theorem backups_change_as_named_foreign :
    ∃ s' emitted, Server.step (sampleBackupOptions "v") (sampleWaiting "v")
        (.complete 0 1 (some (Vector.replicate 12 0))) = some (s', emitted) ∧
      ∃ t ∈ (sampleWaiting "v").tasks,
        (∃ now' iv, s'.storage = ((memoryStorage noValues).apply (sampleWaiting "v").storage now'
          (.upsertWalletBackup (Server.upsert (sampleBackupOptions "v") t iv))).2) ∧
        ∃ p ∈ sampleTaken "v", ∃ raw c key ctx state,
          TakesIn (sampleBackupOptions "v") p.1 p.2 t raw c key ctx state ∧
            FitToStore t.payload ∧ Names t.payload state.intent.keyId "w" := by
  have other : sampleKeyHelloText "v" ≠ sampleBackupText := by decide +kernel
  obtain ⟨events, run⟩ := sample_run other
  obtain ⟨s', stored, after, before⟩ := sample_stored other
  have changed : ((memoryStorage noValues).apply s'.storage 2 (.getWalletBackup "w")).1 ≠
      ((memoryStorage noValues).apply (sampleWaiting "v").storage 2 (.getWalletBackup "w")).1 := by
    rw [after, before]
    simp
  exact ⟨s', _, stored, backups_change_as_named (.memory noValues) run stored changed⟩

/-! ## Isolation -/

/-- A backup frame that is fit to be stored arrives on a socket whose own session is the one
under its id, and names the wallet that the intent of this session names. -/
def OwnFrame (opts : ServerOptions σ V) (s : Server σ) : ServerAction → Prop
  | .message socket raw =>
    ∀ c key ctx payload state walletId, s.connections socket = some c →
      c.transport = some (key, ctx) → opts.parse raw = some payload →
      isText (payload.get? "type") "backup-share" = true → s.sessions key = some state →
      FitToStore payload → Names payload state.intent.keyId walletId →
      state.ctx = ctx ∧ state.intent.keyId = some (.string walletId)
  | _ => True

/-- The condition leaves out the frames that the server takes in for another wallet, or under
another session, and no others. -/
theorem ownFrame_iff : OwnFrame opts s a ↔
    ∀ t raw c key ctx state, TakesIn opts s a t raw c key ctx state →
      state.ctx = ctx ∧ state.intent.keyId = some (.string t.draft.walletId) := by
  constructor
  · intro own t raw c key ctx state h
    obtain ⟨fit, names⟩ := processBackupShare_accepts_iff.mp ⟨t.draft, h.draft, rfl⟩
    have message := h.message
    subst message
    exact own c key ctx t.payload state t.draft.walletId h.connection h.transport h.parsed h.type
      h.session fit names
  · intro own
    cases a with
    | message socket raw =>
        intro c key ctx payload state walletId connection transport parsed type session fit names
        obtain ⟨draft, accepted, rfl⟩ := processBackupShare_accepts_iff.mpr ⟨fit, names⟩
        exact own ⟨socket, payload, draft⟩ raw c key ctx state
          ⟨rfl, connection, transport, parsed, type, session, accepted⟩
    | _ => trivial

/-- When the frames of a run meet the condition, the backup of a wallet only changes through a
frame on a session that names the wallet. -/
theorem backups_isolated (shipped : Shipped opts.storage) {storage : σ}
    {taken : List (Server σ × ServerAction)} (run : (serverMachine opts storage).Run taken events s)
    (meets : Transition.Machine.Meets (OwnFrame opts) taken) {emitted : List ServerEvent}
    (hstep : Server.step opts s a = some (s', emitted)) {walletId : String} {now : ℤ}
    (changed : (opts.storage.apply s'.storage now (.getWalletBackup walletId)).1 ≠
      (opts.storage.apply s.storage now (.getWalletBackup walletId)).1) :
    ∃ t ∈ s.tasks, t.draft.walletId = walletId ∧
      ∃ p ∈ taken, ∃ raw c key ctx state, TakesIn opts p.1 p.2 t raw c key ctx state ∧
        state.ctx = ctx ∧ state.intent.keyId = some (.string walletId) := by
  obtain ⟨t, ht, rfl, ⟨p, hp, raw, c, key, ctx, state, origin⟩, _⟩ :=
    changed_by_task shipped run hstep changed
  exact ⟨t, ht, rfl, p, hp, raw, c, key, ctx, state, origin,
    ownFrame_iff.mp (meets p hp) t raw c key ctx state origin⟩

end MaanyMpc
