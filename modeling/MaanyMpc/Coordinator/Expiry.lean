import MaanyMpc.Coordinator.Stores

/-! # How long a session lives

In memory the expiry of a session is compared with the clock on every read. Redis drops the
entry as well, after a number of whole seconds that is rounded down. -/

namespace MaanyMpc

variable {σ V : Type} {js : JsonValues V}

/-- The call writes or deletes this session. -/
def StorageOp.Touches (sessionId : String) : StorageOp V → Prop
  | .saveSession record => record.sessionId = sessionId
  | .deleteSession other => other = sessionId
  | _ => False

/-- The storage after calls at the given times. -/
def CoordinatorStorage.after (storage : CoordinatorStorage σ V) (calls : List (ℤ × StorageOp V))
    (s : σ) : σ :=
  calls.foldl (fun s call => (storage.apply s call.1 call.2).2) s

theorem CoordinatorStorage.after_invariant {storage : CoordinatorStorage σ V} {I : σ → Prop}
    {calls : List (ℤ × StorageOp V)}
    (step : ∀ call ∈ calls, ∀ s, I s → I (storage.apply s call.1 call.2).2) {s : σ} (h : I s) :
    I (storage.after calls s) := by
  induction calls generalizing s with
  | nil => exact h
  | cons call calls ih =>
      obtain ⟨first, rest⟩ := List.forall_mem_cons.mp step
      exact ih rest (first s h)

/-- The record with its state as it is, or as JSON keeps it. -/
def SavedForm (js : JsonValues V) (record kept : SessionRecord V) : Prop :=
  kept = { record with state := kept.state } ∧
    (kept.state = record.state ∨
      (js.reparse record.state).map (·.getD js.undefined) = some kept.state)

/-- A session that is saved at `t₀` is found at `t` until it expires, and not after that. -/
def LivesUntilExpiry (js : JsonValues V) (storage : CoordinatorStorage σ V) (s : σ)
    (record : SessionRecord V) (t₀ : ℤ) (calls : List (ℤ × StorageOp V)) (t : ℤ) : Prop :=
  let saved := storage.apply s t₀ (.saveSession record)
  saved.1 = some .done → ∃ kept, SavedForm js record kept ∧
    (storage.apply (storage.after calls saved.2) t (.getSession record.sessionId)).1 =
      some (.session (if t < record.expiresAt then some kept else none))

/-! ## In memory -/

theorem cloneSession_eq_some {record clone : SessionRecord V}
    (h : cloneSession js record = some clone) :
    SavedForm js record clone ∧ cloneSession js clone = some clone := by
  by_cases truthy : js.truthy record.state = true
  · cases parsed : js.reparse record.state with
    | none => simp [cloneSession, truthy, parsed] at h
    | some value =>
        cases value with
        | none => simp [cloneSession, truthy, parsed] at h
        | some state =>
            obtain rfl : { record with state := state } = clone := by
              simpa [cloneSession, truthy, parsed] using h
            refine ⟨⟨rfl, .inr (by simp [parsed])⟩, ?_⟩
            simp [cloneSession, js.reparse_reparse _ _ parsed]
  · obtain rfl : record = clone := by simpa [cloneSession, truthy] using h
    exact ⟨⟨rfl, .inl rfl⟩, h⟩

namespace InMemoryCoordinatorStorage

/-- The record is there, unless it has been evicted by the time `t`. -/
def Holds (record : SessionRecord V) (t : ℤ) (s : InMemoryCoordinatorStorage V) : Prop :=
  s.sessions record.sessionId = some record ∨
    s.sessions record.sessionId = none ∧ record.expiresAt ≤ t

theorem Holds.evict {record : SessionRecord V} {t now : ℤ} {s : InMemoryCoordinatorStorage V}
    (h : s.Holds record t) (past : now ≤ t) (sessionId : String) :
    (s.evictExpiredSession now sessionId).Holds record t := by
  unfold evictExpiredSession
  split
  · exact h
  next session found =>
    split
    next expired =>
      by_cases same : record.sessionId = sessionId
      · subst same
        refine .inr ⟨by simp, ?_⟩
        rcases h with stored | ⟨evicted, _⟩
        · obtain rfl := Option.some.inj (stored.symm.trans found)
          exact expired.trans past
        · rw [evicted] at found
          cases found
      · simpa [Holds, Function.update_of_ne same] using h
    · exact h

/-- No call that leaves the session alone takes it away before it expires. -/
theorem Holds.apply {record : SessionRecord V} {t now : ℤ} {s : InMemoryCoordinatorStorage V}
    (h : s.Holds record t) (past : now ≤ t) {op : StorageOp V}
    (other : ¬ op.Touches record.sessionId) : (s.apply js now op).2.Holds record t := by
  cases op with
  | getSession sessionId =>
      have kept := h.evict past sessionId
      simp only [InMemoryCoordinatorStorage.apply, getSession]
      split <;> exact kept
  | saveSession saved =>
      simp only [InMemoryCoordinatorStorage.apply, saveSession]
      split
      · exact h
      · simpa [Holds, Function.update_of_ne (Ne.symm other)] using h
  | deleteSession sessionId =>
      simpa [InMemoryCoordinatorStorage.apply, Holds, Function.update_of_ne (Ne.symm other)] using h
  | _ => exact h

theorem getSession_of_holds {record : SessionRecord V} {t : ℤ} {s : InMemoryCoordinatorStorage V}
    (h : s.Holds record t) (cloned : cloneSession js record = some record) :
    (s.apply js t (.getSession record.sessionId)).1 =
      some (.session (if t < record.expiresAt then some record else none)) := by
  rcases h with stored | ⟨evicted, expired⟩
  · by_cases expired : record.expiresAt ≤ t
    · simp [InMemoryCoordinatorStorage.apply, getSession, evictExpiredSession, stored, expired,
        not_lt.mpr expired]
    · simp [InMemoryCoordinatorStorage.apply, getSession, evictExpiredSession, stored, expired,
        not_le.mp expired, cloned]
  · simp [InMemoryCoordinatorStorage.apply, getSession, evictExpiredSession, evicted,
      not_lt.mpr expired]

end InMemoryCoordinatorStorage

theorem memoryStorage_lives (js : JsonValues V) (s : InMemoryCoordinatorStorage V)
    (record : SessionRecord V) (t₀ : ℤ) {calls : List (ℤ × StorageOp V)} {t : ℤ}
    (past : ∀ call ∈ calls, call.1 ≤ t)
    (others : ∀ call ∈ calls, ¬ call.2.Touches record.sessionId) :
    LivesUntilExpiry js (memoryStorage js) s record t₀ calls t := by
  intro done
  cases cloned : cloneSession js record with
  | none =>
      simp [memoryStorage, InMemoryCoordinatorStorage.apply,
        InMemoryCoordinatorStorage.saveSession, cloned] at done
  | some clone =>
      obtain ⟨form, again⟩ := cloneSession_eq_some cloned
      have name : clone.sessionId = record.sessionId := by rw [form.1]
      have expiresAt : clone.expiresAt = record.expiresAt := by rw [form.1]
      have stored : ((memoryStorage js).apply s t₀ (.saveSession record)).2.Holds clone t := by
        refine .inl ?_
        simp [memoryStorage, InMemoryCoordinatorStorage.apply,
          InMemoryCoordinatorStorage.saveSession, cloned, name]
      have held : ((memoryStorage js).after calls
          ((memoryStorage js).apply s t₀ (.saveSession record)).2).Holds clone t := by
        refine CoordinatorStorage.after_invariant (fun call mem s holds => ?_) stored
        refine holds.apply (past call mem) ?_
        rw [name]
        exact others call mem
      have answer := InMemoryCoordinatorStorage.getSession_of_holds held again
      rw [name, expiresAt] at answer
      exact ⟨clone, form, answer⟩

/-! ## In Redis -/

namespace PostgresRedisStorage

theorem redis_apply {s : PostgresRedisStorage V} (now : ℤ) {op : StorageOp V} {sessionId : String}
    (other : ¬ op.Touches sessionId) :
    (s.apply js now op).2.redis (sessionName sessionId) = s.redis (sessionName sessionId) := by
  cases op with
  | saveSession record =>
      have apart : sessionName sessionId ≠ sessionName record.sessionId :=
        fun same => other (sessionName_injective same).symm
      simp only [PostgresRedisStorage.apply, saveSession]
      cases serializeSession js record with
      | none => rfl
      | some kept => exact Function.update_of_ne apart ..
  | deleteSession deleted =>
      have apart : sessionName sessionId ≠ sessionName deleted :=
        fun same => other (sessionName_injective same).symm
      exact Function.update_of_ne apart ..
  | saveWalletShare record =>
      simp only [PostgresRedisStorage.apply, saveWalletShare]
      split <;> rfl
  | updateWalletShare record =>
      simp only [PostgresRedisStorage.apply, updateWalletShare]
      split <;> rfl
  | setNonce walletId value =>
      simp only [PostgresRedisStorage.apply, setNonce]
      cases value.toInt32? <;> rfl
  | upsertWalletBackup record =>
      simp only [PostgresRedisStorage.apply, upsertWalletBackup]
      split <;> rfl
  | _ => rfl

/-- What a session becomes in Redis. -/
theorem saveSession_entry (s : PostgresRedisStorage V) {record : SessionRecord V} (now : ℤ)
    (stringifies : js.reparse record.state ≠ none) :
    ∃ s' entry, s.apply js now (.saveSession record) = (some .done, s') ∧
      s'.redis (sessionName record.sessionId) = some entry ∧
      entry.deadline = now + 1000 * ttlSeconds record now ∧
      entry.record.expiresAt = record.expiresAt ∧ SavedForm js record entry.record := by
  obtain ⟨state, parsed⟩ := Option.ne_none_iff_exists'.mp stringifies
  have kept : serializeSession js record =
      some { record with state := state.getD js.undefined } := by
    simp [serializeSession, parsed]
  let entry : RedisEntry V :=
    ⟨{ record with state := state.getD js.undefined }, now + 1000 * ttlSeconds record now⟩
  refine ⟨{ s with redis := Function.update s.redis (sessionName record.sessionId) (some entry) },
    entry, ?_, Function.update_self .., rfl, rfl, rfl, .inr (by simp [parsed, entry])⟩
  simp only [PostgresRedisStorage.apply, saveSession, kept, Option.map_some, wrote, entry]

/-- Both clocks have a say. -/
theorem getSession_answer (js : JsonValues V) {s : PostgresRedisStorage V} {sessionId : String}
    {entry : RedisEntry V} (stored : s.redis (sessionName sessionId) = some entry) (t : ℤ) :
    (s.apply js t (.getSession sessionId)).1 = some (.session
      (if t < entry.deadline ∧ t < entry.record.expiresAt then some entry.record else none)) := by
  simp only [PostgresRedisStorage.apply, redisGet, stored, Option.filter_some, deserializeSession]
  by_cases alive : t < entry.deadline
  · by_cases expired : entry.record.expiresAt ≤ t
    · simp [alive, expired, not_lt.mpr expired]
    · simp [alive, expired, not_le.mp expired]
  · simp [alive]

end PostgresRedisStorage

/-- The moment is not in what is left of the last second of a session that lives for a minute
or more. -/
theorem databaseStorage_lives_iff (s : PostgresRedisStorage V) {record : SessionRecord V}
    (t₀ : ℤ) (stringifies : js.reparse record.state ≠ none)
    {calls : List (ℤ × StorageOp V)} (t : ℤ)
    (others : ∀ call ∈ calls, ¬ call.2.Touches record.sessionId) :
    LivesUntilExpiry js (databaseStorage js) s record t₀ calls t ↔
      record.expiresAt - t₀ < 60000 ∨ t + (record.expiresAt - t₀) % 1000 < record.expiresAt ∨
        record.expiresAt ≤ t := by
  obtain ⟨s', entry, saved, stored, deadline, expiresAt, form⟩ :=
    s.saveSession_entry t₀ stringifies
  have kept : ((databaseStorage js).after calls s').redis (sessionName record.sessionId) =
      some entry := by
    refine CoordinatorStorage.after_invariant (I := fun s : PostgresRedisStorage V =>
      s.redis (sessionName record.sessionId) = some entry) (fun call mem s same => ?_) stored
    exact (PostgresRedisStorage.redis_apply call.1 (others call mem)).trans same
  have answer := PostgresRedisStorage.getSession_answer js kept t
  have alive : (t < entry.deadline ∧ t < entry.record.expiresAt ↔ t < record.expiresAt) ↔
      record.expiresAt - t₀ < 60000 ∨ t + (record.expiresAt - t₀) % 1000 < record.expiresAt ∨
        record.expiresAt ≤ t := by
    rw [deadline, expiresAt, ttlSeconds]
    omega
  have applied : (databaseStorage js).apply s t₀ (.saveSession record) = (some .done, s') := saved
  rw [← alive, LivesUntilExpiry, applied]
  constructor
  · intro lives
    obtain ⟨kept', _, answer'⟩ := lives rfl
    have same := answer.symm.trans answer'
    simp only [Option.some.injEq, StorageResult.session.injEq] at same
    by_cases inTime : t < record.expiresAt
    · rw [if_pos inTime] at same
      exact iff_of_true (by_contra fun late => by simp [late] at same) inTime
    · exact iff_of_false (fun both => inTime (expiresAt ▸ both.2)) inTime
  · intro agree _
    refine ⟨entry.record, form, answer.trans ?_⟩
    simp only [agree]

/-- When both storages keep a session exactly as long as it lives; the one in memory always
does. -/
theorem session_lives_iff (m : InMemoryCoordinatorStorage V) (d : PostgresRedisStorage V)
    {record : SessionRecord V} (stringifies : js.reparse record.state ≠ none) (t₀ : ℤ)
    {calls : List (ℤ × StorageOp V)} {t : ℤ} (past : ∀ call ∈ calls, call.1 ≤ t)
    (others : ∀ call ∈ calls, ¬ call.2.Touches record.sessionId) :
    (LivesUntilExpiry js (memoryStorage js) m record t₀ calls t ∧
        LivesUntilExpiry js (databaseStorage js) d record t₀ calls t ↔
      record.expiresAt - t₀ < 60000 ∨ t + (record.expiresAt - t₀) % 1000 < record.expiresAt ∨
        record.expiresAt ≤ t) ∧
    LivesUntilExpiry js (memoryStorage js) m record t₀ calls t := by
  have memory := memoryStorage_lives js m record t₀ past others
  rw [and_iff_right memory]
  exact ⟨databaseStorage_lives_iff d t₀ stringifies t others, memory⟩

def sampleSessionRecord : SessionRecord Unit := ⟨"s", some "w", .dkg, (), 60999⟩

/-- A session of almost 61 seconds, after 60 and a half. -/
theorem session_dropped_early :
    ¬ ∀ (d : PostgresRedisStorage Unit) (record : SessionRecord Unit) (t₀ t : ℤ), t₀ ≤ t →
      LivesUntilExpiry noValues (databaseStorage noValues) d record t₀ [] t := by
  intro lives
  have early := lives .new sampleSessionRecord 0 60500 (by decide)
  rw [databaseStorage_lives_iff _ 0 (by simp [noValues]) 60500 (by simp)] at early
  revert early
  decide

/-- The same session a second before. -/
theorem session_lives_iff_before :
    LivesUntilExpiry noValues (memoryStorage noValues) .new sampleSessionRecord 0
        [(59000, .getSession "s"), (59200, .setNonce "w" (.finite 1))] 59500 ∧
      LivesUntilExpiry noValues (databaseStorage noValues) .new sampleSessionRecord 0
        [(59000, .getSession "s"), (59200, .setNonce "w" (.finite 1))] 59500 := by
  refine (session_lives_iff .new .new (by simp [noValues]) 0 ?_ ?_).1.mpr (by decide)
  · simp
  · simp [StorageOp.Touches]

end MaanyMpc
