import MaanyMpc.Coordinator.SharePrompts

/-! # What loads are answered

Whatever is saved and removed while the user is asked, a load comes to what was stored when it was
made, and every promise is settled once. -/

namespace MaanyMpc.SharePrompts

open Transition

variable {Key : Type} {android : AndroidBase64} {cipher : KeystoreCipher Key}

/-! ## Answers -/

/-- What a prompt decrypts is what the module loads at once. -/
def Reads (android : AndroidBase64) (cipher : KeystoreCipher Key)
    (m : SecureShareStorageModule Key) (keyId : String) (prompt : Prompt Key) : Prop :=
  ∀ decrypted, cipher.decrypt prompt.key prompt.iv prompt.encrypted = some decrypted →
    m.loadShare android cipher keyId = .ok (some (android.encodeToString decrypted))

/-- The answers to a call that is made in `before`. -/
inductive Right (android : AndroidBase64) (cipher : KeystoreCipher Key) (before : ShareModule Key) :
    PromptAction → Settlement → Prop where
  | saved {draw keyId base64 works} :
      Right android cipher before (.saveShare draw keyId base64 works) (.resolved none)
  | refused {draw keyId base64 works} :
      Right android cipher before (.saveShare draw keyId base64 works)
        (.rejected "ERR_SAVE_SHARE" "Failed to encrypt share")
  | removed {keyId deleted} :
      Right android cipher before (.removeShare keyId deleted) (.resolved none)
  | loaded {keyId finds value} (h : before.stored.loadShare android cipher keyId = .ok value) :
      Right android cipher before (.loadShare keyId finds) (.resolved value)
  /-- the keystore cannot be read -/
  | unread {keyId finds} (h : finds.entry = false) :
      Right android cipher before (.loadShare keyId finds) (.resolved none)
  /-- another load has not been answered -/
  | busy {keyId finds p} (h : before.pendingPromise = some p) :
      Right android cipher before (.loadShare keyId finds)
        (.rejected "ERR_BUSY" "Another authentication request is already in progress")
  | failed {keyId finds code message} (h : code ≠ "ERR_BUSY") :
      Right android cipher before (.loadShare keyId finds) (.rejected code message)

/-- Whatever a prompt comes to is right for the load that has prepared it. -/
theorem outcome_right {before : ShareModule Key} {keyId : String} {finds : LoadConditions}
    {prompt : Prompt Key} (reads : Reads android cipher before.stored keyId prompt)
    (r : Authentication) :
    Right android cipher before (.loadShare keyId finds) (outcome android cipher prompt r) := by
  cases r with
  | error errString => exact .failed (by decide)
  | succeeded crypto works =>
      cases crypto with
      | false => exact .failed (by decide)
      | true =>
          cases works with
          | false => exact .failed (by decide)
          | true =>
              cases decrypted : cipher.decrypt prompt.key prompt.iv prompt.encrypted with
              | none =>
                  rw [outcome, if_pos rfl, decrypted]
                  exact .failed (by decide)
              | some bytes =>
                  rw [outcome, if_pos rfl, decrypted]
                  exact .loaded (reads bytes decrypted)

/-- What is stored are encodings. -/
def Encoded (android : AndroidBase64) (m : SecureShareStorageModule Key) : Prop :=
  ∀ name text, m.preferences name = some text → ∃ bytes, text = android.encodeToString bytes

/-- What a load comes to before its prompt. -/
inductive Prepared (android : AndroidBase64) (cipher : KeystoreCipher Key) (s : ShareModule Key)
    (keyId : String) (finds : LoadConditions) : Option (Except Settlement (Prompt Key)) → Prop where
  | threw {name text} (stored : s.stored.preferences name = some text)
      (bad : android.decode text = none) : Prepared android cipher s keyId finds none
  | settled {settlement} (right : Right android cipher s (.loadShare keyId finds) settlement) :
      Prepared android cipher s keyId finds (some (.error settlement))
  | prompt {prompt} (free : s.pendingPromise = none)
      (reads : Reads android cipher s.stored keyId prompt) :
      Prepared android cipher s keyId finds (some (.ok prompt))

theorem prepare_spec (android : AndroidBase64) (cipher : KeystoreCipher Key)
    (s : ShareModule Key) (keyId : String) (finds : LoadConditions) :
    Prepared android cipher s keyId finds (prepare android s keyId finds) := by
  unfold prepare
  cases stored : s.stored.preferences (prefKey keyId) with
  | none => exact .settled (.loaded (by simp only [SecureShareStorageModule.loadShare, stored]))
  | some text =>
      cases pending : s.pendingPromise with
      | some p => exact .settled (.busy pending)
      | none =>
          obtain ⟨activity, keystore, entry, ready⟩ := finds
          cases activity with
          | false => exact .settled (.failed (by decide))
          | true =>
          cases keystore with
          | false => exact .settled (.failed (by decide))
          | true =>
              cases entry with
              | false => exact .settled (.unread rfl)
              | true =>
                  cases key : s.stored.keystore (aliasFor keyId) with
                  | none =>
                      refine .settled (.loaded ?_)
                      simp only [SecureShareStorageModule.loadShare, stored, key]
                  | some key =>
                      simp only [Option.isSome_none, Bool.false_eq_true, if_false, Bool.not_true,
                        if_true]
                      cases decoded : android.decode text with
                      | none => exact .threw stored decoded
                      | some payload =>
                          by_cases short : payload.length < ivLength + 1
                          · simp only [if_pos short]
                            exact .settled (.failed (by decide))
                          · simp only [if_neg short]
                            cases ready with
                            | false => exact .settled (.failed (by decide))
                            | true =>
                                refine .prompt pending fun decrypted works => ?_
                                simp only [SecureShareStorageModule.loadShare, stored, key, decoded,
                                  if_neg short, works]

theorem getOrCreateKey_preferences {m m' : SecureShareStorageModule Key} {draw : ℕ}
    {keyAlias : String} {works : SaveConditions} {key : Key}
    (h : getOrCreateKey cipher m draw keyAlias works = some (key, m')) :
    m'.preferences = m.preferences := by
  unfold getOrCreateKey at h
  cases found : (if works.entry then m.keystore keyAlias else none) with
  | some key =>
      simp only [found, Option.some.injEq, Prod.mk.injEq] at h
      rw [← h.2]
  | none =>
      simp only [found] at h
      split_ifs at h
      simp only [Option.some.injEq, Prod.mk.injEq] at h
      rw [← h.2]

theorem Encoded.of_preferences {m m' : SecureShareStorageModule Key}
    (same : m'.preferences = m.preferences) (h : Encoded android m) : Encoded android m' := by
  rwa [Encoded, same]

/-- A save is resolved or refused, and writes an encoding at most. -/
theorem saveShare_spec (android : AndroidBase64) (cipher : KeystoreCipher Key)
    (s : ShareModule Key) (draw : ℕ) (keyId base64 : String)
    (works : SaveConditions) :
    Right android cipher s (.saveShare draw keyId base64 works)
        (saveShare android cipher s.stored draw keyId base64 works).1 ∧
      (Encoded android s.stored →
        Encoded android (saveShare android cipher s.stored draw keyId base64 works).2) := by
  unfold saveShare
  cases android.decode base64 with
  | none => exact ⟨.refused, id⟩
  | some value =>
      cases made : getOrCreateKey cipher s.stored draw (aliasFor keyId) works with
      | none => exact ⟨.refused, id⟩
      | some created =>
          obtain ⟨key, m⟩ := created
          have same := getOrCreateKey_preferences made
          by_cases encrypts : works.encrypts
          · simp only [encrypts, if_true]
            refine ⟨.saved, fun encoded name text found => ?_⟩
            by_cases written : name = prefKey keyId
            · subst written
              simp only [Function.update_self, Option.some.injEq] at found
              exact ⟨_, found.symm⟩
            · simp only [Function.update_of_ne written, same] at found
              exact encoded name text found
          · simp only [encrypts]
            exact ⟨.refused, .of_preferences same⟩

theorem removeShare_encoded {m : SecureShareStorageModule Key} (h : Encoded android m)
    (keyId : String) (deleted : Bool) : Encoded android (removeShare m keyId deleted) := by
  intro name text found
  by_cases cleared : name = prefKey keyId
  · subst cleared
    simp [removeShare] at found
  · simp only [removeShare, Function.update_of_ne cleared] at found
    exact h name text found

/-! ## Steps -/

/-- What an action does. -/
inductive Moves (android : AndroidBase64) (cipher : KeystoreCipher Key) (s : ShareModule Key) :
    PromptAction → ShareModule Key → List (ℕ × Settlement) → Prop where
  | answer {a settlement stored} (free : s.loading = none)
      (right : Right android cipher s a settlement)
      (encoded : Encoded android s.stored → Encoded android stored) :
      Moves android cipher s a { s with stored, promises := s.promises + 1 }
        [(s.promises, settlement)]
  | threw {keyId finds name text} (stored : s.stored.preferences name = some text)
      (bad : android.decode text = none) :
      Moves android cipher s (.loadShare keyId finds) { s with promises := s.promises + 1 } []
  | prepare {keyId finds prompt} (free : s.loading = none) (idle : s.pendingPromise = none)
      (reads : Reads android cipher s.stored keyId prompt) :
      Moves android cipher s (.loadShare keyId finds)
        { s with loading := some (s.promises, prompt), promises := s.promises + 1 } []
  | post {p prompt} (loading : s.loading = some (p, prompt)) :
      Moves android cipher s .post
        { s with
          loading := none
          pendingPromise := some p
          prompts := Function.update s.prompts p (some (.posted, prompt)) } []
  | launch {p prompt} (free : s.callback = none) (posted : s.prompts p = some (.posted, prompt)) :
      Moves android cipher s (.run p true)
        { s with prompts := Function.update s.prompts p (some (.shown, prompt)) } []
  | enter {a p phase prompt settlement} (free : s.callback = none)
      (at_ : s.prompts p = some (phase, prompt))
      (once : CallsBackOnce s a → phase ≠ .answered)
      (right : ∀ before keyId finds, Reads android cipher before.stored keyId prompt →
        Right android cipher before (.loadShare keyId finds) settlement) :
      Moves android cipher s a (s.enter p prompt settlement) []
  | clear {current settlement} (entered : s.callback = some ⟨current, false, settlement⟩) :
      Moves android cipher s .clear
        { s with pendingPromise := none, callback := some ⟨current, true, settlement⟩ } []
  | settle {current settlement} (cleared : s.callback = some ⟨current, true, settlement⟩) :
      Moves android cipher s .settle { s with callback := none }
        (current.toList.map fun p => (p, settlement))

theorem step_moves {s s' : ShareModule Key} {a : PromptAction} {emitted : List (ℕ × Settlement)}
    (h : (machine android cipher).step s a = some (s', emitted)) :
    Moves android cipher s a s' emitted := by
  change step android cipher s a = some (s', emitted) at h
  cases a with
  | saveShare draw keyId base64 works =>
      rw [step] at h
      split_ifs at h with free
      cases h
      obtain ⟨right, encoded⟩ := saveShare_spec android cipher s draw keyId base64 works
      exact .answer (Option.not_isSome_iff_eq_none.mp free) right encoded
  | removeShare keyId deleted =>
      rw [step] at h
      split_ifs at h with free
      cases h
      exact .answer (Option.not_isSome_iff_eq_none.mp free) .removed
        fun encoded => removeShare_encoded encoded keyId deleted
  | loadShare keyId finds =>
      rw [step] at h
      split_ifs at h with free
      have free := Option.not_isSome_iff_eq_none.mp free
      have spec := prepare_spec android cipher s keyId finds
      cases found : prepare android s keyId finds with
      | none =>
          rw [found] at h spec
          cases h
          cases spec with
          | threw stored bad => exact .threw stored bad
      | some prepared =>
          rw [found] at h spec
          cases spec with
          | settled right =>
              cases h
              exact .answer free right id
          | prompt idle reads =>
              cases h
              exact .prepare free idle reads
  | post =>
      rw [step] at h
      cases loading : s.loading with
      | none =>
          rw [loading] at h
          cases h
      | some next =>
          rw [loading] at h
          cases h
          exact .post loading
  | run p launched =>
      rw [step] at h
      cases free : s.callback with
      | some c =>
          rw [free] at h
          cases h
      | none =>
          cases at_ : s.prompts p with
          | none =>
              rw [free, at_] at h
              cases h
          | some prompt =>
              obtain ⟨phase, prompt⟩ := prompt
              rw [free, at_] at h
              cases phase with
              | posted =>
                  cases launched with
                  | true =>
                      cases h
                      exact free ▸ .launch free at_
                  | false =>
                      cases h
                      exact .enter free at_ (fun _ => by decide) fun _ _ _ _ => .failed (by decide)
              | shown => cases h
              | answered => cases h
  | authenticated p r =>
      rw [step] at h
      cases free : s.callback with
      | some c =>
          rw [free] at h
          cases h
      | none =>
          cases at_ : s.prompts p with
          | none =>
              rw [free, at_] at h
              cases h
          | some prompt =>
              obtain ⟨phase, prompt⟩ := prompt
              rw [free, at_] at h
              cases phase with
              | posted => cases h
              | shown =>
                  cases h
                  exact .enter free at_ (fun _ => by decide)
                    fun _ _ _ reads => outcome_right reads r
              | answered =>
                  cases h
                  exact .enter free at_ (fun once => absurd at_ (once prompt))
                    fun _ _ _ reads => outcome_right reads r
  | clear =>
      rw [step] at h
      cases entered : s.callback with
      | none =>
          rw [entered] at h
          cases h
      | some c =>
          obtain ⟨current, cleared, settlement⟩ := c
          rw [entered] at h
          cases cleared with
          | true => cases h
          | false =>
              cases h
              exact .clear entered
  | settle =>
      rw [step] at h
      cases entered : s.callback with
      | none =>
          rw [entered] at h
          cases h
      | some c =>
          obtain ⟨current, cleared, settlement⟩ := c
          rw [entered] at h
          cases cleared with
          | false => cases h
          | true =>
              cases h
              exact .settle entered

/-! ## One load at a time -/

/-- A prompt that has not called back. -/
def Open (s : ShareModule Key) (p : ℕ) : Prop :=
  ∃ phase prompt, s.prompts p = some (phase, prompt) ∧ phase ≠ .answered

/-- A callback, if there is one, has cleared `pendingPromise`. -/
def Cleared (s : ShareModule Key) : Prop := ∀ c, s.callback = some c → c.cleared = true

/-- How far the load has come that holds others off. -/
inductive Flight (s : ShareModule Key) : Option ℕ → Prop where
  | idle (loading : s.loading = none) (pending : s.pendingPromise = none)
      (quiet : ∀ p, ¬ Open s p) (cleared : Cleared s) : Flight s none
  | loading {p prompt} (loading : s.loading = some (p, prompt)) (pending : s.pendingPromise = none)
      (quiet : ∀ p, ¬ Open s p) (cleared : Cleared s) : Flight s (some p)
  | asked {p} (loading : s.loading = none) (pending : s.pendingPromise = some p)
      (only : ∀ q, Open s q ↔ q = p) (cleared : Cleared s) : Flight s (some p)
  | answering {p settlement} (loading : s.loading = none) (pending : s.pendingPromise = some p)
      (quiet : ∀ p, ¬ Open s p) (entered : s.callback = some ⟨some p, false, settlement⟩) :
      Flight s (some p)

/-- The callback that has cleared `pendingPromise` is about to settle this promise. -/
def Settling (s : ShareModule Key) (p : ℕ) : Prop :=
  ∃ settlement, s.callback = some ⟨some p, true, settlement⟩

def Waits (s : ShareModule Key) (flight : Option ℕ) (p : ℕ) : Prop :=
  flight = some p ∨ Settling s p

/-- The promises that do not wait have been settled, each once. -/
structure Ledger (android : AndroidBase64) (events : List (ℕ × Settlement)) (s : ShareModule Key)
    (flight : Option ℕ) : Prop where
  stage : Flight s flight
  encoded : Encoded android s.stored
  made : ∀ p, Waits s flight p → p < s.promises
  apart : ∀ p, Settling s p → flight ≠ some p
  settled : ∀ p, p ∈ events.map Prod.fst ↔ p < s.promises ∧ ¬ Waits s flight p
  nodup : (events.map Prod.fst).Nodup

section Ledger

variable {s s' : ShareModule Key} {a : PromptAction} {events emitted : List (ℕ × Settlement)}
  {flight flight' : Option ℕ}

/-- A callback that has yet to clear `pendingPromise` has read the load that is under way. -/
theorem Flight.answering_of_callback (h : Flight s flight) {c : Callback}
    (entered : s.callback = some c) (early : c.cleared = false) :
    ∃ p, flight = some p ∧ c.current = some p ∧ s.loading = none ∧ ∀ q, ¬ Open s q := by
  have late : ¬ Cleared s := fun cleared => by
    rw [cleared c entered] at early
    cases early
  cases h with
  | idle _ _ _ cleared => exact absurd cleared late
  | loading _ _ _ cleared => exact absurd cleared late
  | asked _ _ _ cleared => exact absurd cleared late
  | answering loading _ quiet entered' =>
      obtain rfl := Option.some.inj (entered.symm.trans entered')
      exact ⟨_, rfl, rfl, loading, quiet⟩

/-- A prompt that calls back is the one that is under way. -/
theorem Flight.asked_of_open (h : Flight s flight) {p : ℕ} (calls : Open s p) :
    flight = some p ∧ s.loading = none ∧ s.pendingPromise = some p ∧ ∀ q, Open s q ↔ q = p := by
  cases h with
  | idle _ _ quiet => exact absurd calls (quiet p)
  | loading _ _ quiet => exact absurd calls (quiet p)
  | answering _ _ quiet => exact absurd calls (quiet p)
  | asked loading pending only =>
      obtain rfl := (only p).mp calls
      exact ⟨rfl, loading, pending, only⟩

/-- Fields that a call does not touch. -/
theorem Flight.congr (h : Flight s flight) (loading : s'.loading = s.loading)
    (pending : s'.pendingPromise = s.pendingPromise) (prompts : s'.prompts = s.prompts)
    (cleared : Cleared s → Cleared s') (callback : ∀ c, s.callback = some c → c.cleared = false →
      s'.callback = some c) : Flight s' flight := by
  have same : ∀ p, Open s' p ↔ Open s p := fun p => by rw [Open, Open, prompts]
  cases h with
  | idle loading' pending' quiet cleared' =>
      exact .idle (loading.trans loading') (pending.trans pending')
        (fun p calls => quiet p ((same p).mp calls)) (cleared cleared')
  | loading loading' pending' quiet cleared' =>
      exact .loading (loading.trans loading') (pending.trans pending')
        (fun p calls => quiet p ((same p).mp calls)) (cleared cleared')
  | asked loading' pending' only cleared' =>
      exact .asked (loading.trans loading') (pending.trans pending')
        (fun q => (same q).trans (only q)) (cleared cleared')
  | answering loading' pending' quiet entered =>
      exact .answering (loading.trans loading') (pending.trans pending')
        (fun p calls => quiet p ((same p).mp calls)) (callback _ entered rfl)

theorem open_update {p : ℕ} {phase : PromptPhase} {prompt : Prompt Key}
    (prompts : s'.prompts = Function.update s.prompts p (some (phase, prompt))) (q : ℕ) :
    Open s' q ↔ if q = p then phase ≠ .answered else Open s q := by
  rw [Open, prompts]
  split_ifs with same
  · subst same
    simp
  · simp only [Function.update_of_ne same]
    exact Iff.rfl

/-- A step that neither makes nor settles a promise. -/
theorem Ledger.of_waits (ledger : Ledger android events s flight) (stage : Flight s' flight')
    (stored : s'.stored = s.stored) (promises : s'.promises = s.promises)
    (waits : ∀ p, Waits s' flight' p ↔ Waits s flight p)
    (apart : ∀ p, Settling s' p → flight' ≠ some p) :
    Ledger android (events ++ []) s' flight' where
  stage := stage
  encoded := stored ▸ ledger.encoded
  made p hp := promises ▸ ledger.made p ((waits p).mp hp)
  apart := apart
  settled p := by rw [List.append_nil, ledger.settled, promises, waits]
  nodup := by
    rw [List.append_nil]
    exact ledger.nodup

/-- A call that is settled at once. -/
theorem Ledger.answer (ledger : Ledger android events s flight) (settlement : Settlement)
    {stored : SecureShareStorageModule Key} (encoded : Encoded android stored) :
    Ledger android (events ++ [(s.promises, settlement)])
      { s with stored, promises := s.promises + 1 } flight where
  stage := ledger.stage.congr rfl rfl rfl id fun _ entered _ => entered
  encoded := encoded
  made p hp := Nat.lt_succ_of_lt (ledger.made p hp)
  apart := ledger.apart
  settled p := by
    have new : ¬ Waits s flight s.promises := fun hp => lt_irrefl _ (ledger.made _ hp)
    rw [List.map_append, List.mem_append, ledger.settled, List.map_singleton, List.mem_singleton]
    change _ ↔ p < s.promises + 1 ∧ ¬ Waits s flight p
    by_cases same : p = s.promises
    · subst same
      exact iff_of_true (.inr rfl) ⟨Nat.lt_succ_self _, new⟩
    · rw [or_iff_left same, Nat.lt_succ_iff_lt_or_eq, or_iff_left same]
  nodup := by
    rw [List.map_append, List.map_singleton, List.nodup_append]
    refine ⟨ledger.nodup, List.nodup_singleton _, ?_⟩
    rintro p settled q last rfl
    obtain rfl := List.mem_singleton.mp last
    exact lt_irrefl _ ((ledger.settled _).mp settled).1

/-- The callback settles the promise that it has read. -/
theorem Ledger.settle (ledger : Ledger android events s flight) {current : Option ℕ}
    {settlement : Settlement} (cleared : s.callback = some ⟨current, true, settlement⟩) :
    Ledger android (events ++ current.toList.map fun p => (p, settlement))
      { s with callback := none } flight := by
  have settling (p : ℕ) : Settling s p ↔ current = some p := by
    rw [Settling, cleared]
    exact ⟨fun ⟨_, same⟩ => by cases same; rfl, fun same => ⟨settlement, by rw [same]⟩⟩
  have gone (p : ℕ) : ¬ Settling { s with callback := none } p := fun ⟨_, same⟩ => by cases same
  have listed (p : ℕ) : p ∈ (current.toList.map fun p => (p, settlement)).map Prod.fst ↔
      current = some p := by
    cases current <;> simp [eq_comm]
  constructor
  · exact ledger.stage.congr rfl rfl rfl (fun _ _ same => by cases same) fun c entered early => by
      cases cleared.symm.trans entered
      cases early
  · exact ledger.encoded
  · rintro p (flies | settles)
    · exact ledger.made p (.inl flies)
    · exact absurd settles (gone p)
  · exact fun p settles => absurd settles (gone p)
  · intro p
    have made : current = some p → p < s.promises :=
      fun same => ledger.made p (.inr ((settling p).mpr same))
    have apart : current = some p → flight ≠ some p :=
      fun same => ledger.apart p ((settling p).mpr same)
    have before : Waits s flight p ↔ flight = some p ∨ current = some p :=
      or_congr_right (settling p)
    have after : Waits { s with callback := none } flight p ↔ flight = some p :=
      or_iff_left (gone p)
    rw [List.map_append, List.mem_append, ledger.settled, listed, before, after]
    tauto
  · rw [List.map_append, List.nodup_append]
    refine ⟨ledger.nodup, ?_, ?_⟩
    · cases current <;> simp
    · rintro p settled q now rfl
      exact ((ledger.settled p).mp settled).2 (.inr ((settling p).mpr ((listed p).mp now)))

/-- A load that has found no other under way. -/
theorem Ledger.prepare (ledger : Ledger android events s flight) (free : s.loading = none)
    (idle : s.pendingPromise = none) (prompt : Prompt Key) :
    Ledger android (events ++ [])
      { s with loading := some (s.promises, prompt), promises := s.promises + 1 }
      (some s.promises) := by
  obtain ⟨rfl, quiet, cleared⟩ : flight = none ∧ (∀ p, ¬ Open s p) ∧ Cleared s := by
    cases ledger.stage with
    | idle _ _ quiet cleared => exact ⟨rfl, quiet, cleared⟩
    | loading loading =>
        rw [free] at loading
        cases loading
    | asked _ pending =>
        rw [idle] at pending
        cases pending
    | answering _ pending =>
        rw [idle] at pending
        cases pending
  constructor
  · exact .loading rfl idle quiet cleared
  · exact ledger.encoded
  · rintro p (rfl' | settles)
    · cases rfl'
      exact Nat.lt_succ_self _
    · exact Nat.lt_succ_of_lt (ledger.made p (.inr settles))
  · rintro p settles rfl'
    cases rfl'
    exact lt_irrefl _ (ledger.made _ (.inr settles))
  · intro p
    rw [List.append_nil, ledger.settled]
    by_cases same : p = s.promises
    · subst same
      exact iff_of_false (fun h => lt_irrefl _ h.1) fun h => h.2 (.inl rfl)
    · have waits : Waits s none p ↔
          Waits { s with loading := some (s.promises, prompt), promises := s.promises + 1 }
            (some s.promises) p :=
        or_congr_left (iff_of_false (fun h => by cases h) fun h => same (Option.some.inj h).symm)
      rw [waits]
      exact and_congr_left fun _ => (Nat.lt_succ_iff_lt_or_eq.trans (or_iff_left same)).symm
  · rw [List.append_nil]
    exact ledger.nodup

/-- A prompt that calls back for the first time. -/
theorem Ledger.enter (ledger : Ledger android events s flight) (free : s.callback = none) {p : ℕ}
    (calls : Open s p) (prompt : Prompt Key) (settlement : Settlement) :
    Ledger android (events ++ []) (s.enter p prompt settlement) flight := by
  obtain ⟨rfl, loading, pending, only⟩ := ledger.stage.asked_of_open calls
  have entered : (s.enter p prompt settlement).callback = some ⟨some p, false, settlement⟩ := by
    rw [ShareModule.enter, pending]
  have before (q : ℕ) : ¬ Settling s q := fun ⟨_, same⟩ => by cases free.symm.trans same
  have after (q : ℕ) : ¬ Settling (s.enter p prompt settlement) q :=
    fun ⟨_, same⟩ => by cases entered.symm.trans same
  refine ledger.of_waits (.answering loading pending (fun q again => ?_) entered) rfl rfl
    (fun q => or_congr_right (iff_of_false (after q) (before q)))
    fun q settles => absurd settles (after q)
  rw [open_update rfl, only] at again
  split_ifs at again with same
  · exact again rfl
  · exact same again

theorem Ledger.step (hand : android.Lawful) (ledger : Ledger android events s flight)
    (once : CallsBackOnce s a) (moves : Moves android cipher s a s' emitted) :
    ∃ flight', Ledger android (events ++ emitted) s' flight' := by
  cases moves with
  | answer free right encoded => exact ⟨flight, ledger.answer _ (encoded ledger.encoded)⟩
  | threw stored bad =>
      obtain ⟨bytes, rfl⟩ := ledger.encoded _ _ stored
      rw [hand.encodeToString, hand.decode] at bad
      cases bad
  | prepare free idle reads => exact ⟨_, ledger.prepare free idle _⟩
  | @post p prompt loading =>
      obtain ⟨rfl, quiet, cleared⟩ : flight = some p ∧ (∀ q, ¬ Open s q) ∧ Cleared s := by
        cases ledger.stage with
        | loading loading' _ quiet cleared =>
            cases loading.symm.trans loading'
            exact ⟨rfl, quiet, cleared⟩
        | idle loading' => cases loading.symm.trans loading'
        | asked loading' => cases loading.symm.trans loading'
        | answering loading' => cases loading.symm.trans loading'
      refine ⟨some p, ledger.of_waits (.asked rfl rfl (fun q => ?_) cleared) rfl rfl
        (fun _ => Iff.rfl) ledger.apart⟩
      rw [open_update rfl]
      split_ifs with same
      · exact iff_of_true (by decide) same
      · exact iff_of_false (quiet q) same
  | @launch p prompt free posted =>
      obtain ⟨rfl, loading, pending, only⟩ := ledger.stage.asked_of_open ⟨_, _, posted, by decide⟩
      refine ⟨some p, ledger.of_waits (.asked loading pending (fun q => ?_) fun c entered => ?_)
        rfl rfl (fun _ => Iff.rfl) ledger.apart⟩
      · rw [open_update rfl, only]
        split_ifs with same
        · exact iff_of_true (by decide) same
        · exact Iff.rfl
      · cases free.symm.trans entered
  | enter free at_ first right =>
      exact ⟨flight, ledger.enter free ⟨_, _, at_, first once⟩ _ _⟩
  | @clear current settlement entered =>
      obtain ⟨p, rfl, rfl, loading, quiet⟩ := ledger.stage.answering_of_callback entered rfl
      have early (q : ℕ) : ¬ Settling s q := fun ⟨_, same⟩ => by cases entered.symm.trans same
      refine ⟨none, ledger.of_waits (.idle loading rfl quiet fun c same => ?_) rfl rfl
        (fun q => ?_) fun q settles same => by cases same⟩
      · cases same
        rfl
      · constructor
        · rintro (same | ⟨_, same⟩)
          · cases same
          · cases same
            exact .inl rfl
        · rintro (same | settles)
          · cases same
            exact .inr ⟨settlement, rfl⟩
          · exact absurd settles (early q)
  | settle cleared => exact ⟨flight, ledger.settle cleared⟩

end Ledger

section Runs

variable {taken : List (ShareModule Key × PromptAction)} {events : List (ℕ × Settlement)}
  {s : ShareModule Key}

theorem ledger_init (android : AndroidBase64) :
    Ledger android [] (.new : ShareModule Key) none where
  stage := .idle rfl rfl (fun _ ⟨_, _, same, _⟩ => by cases same) fun _ same => by cases same
  encoded _ _ found := by cases found
  made p hp := by obtain same | ⟨_, same⟩ := hp <;> cases same
  apart _ settles same := by cases same
  settled p := by simp [ShareModule.new]
  nodup := List.nodup_nil

theorem exists_ledger (hand : android.Lawful) (run : (machine android cipher).Run taken events s)
    (once : Machine.Meets CallsBackOnce taken) : ∃ flight, Ledger android events s flight := by
  refine run.guarded_invariant CallsBackOnce
    (fun events s => ∃ flight, Ledger android events s flight) ⟨none, ledger_init android⟩ ?_ once
  rintro events s a s' emitted ⟨flight, ledger⟩ once hstep
  exact ledger.step hand once (step_moves hstep)

/-! ## What a promise is settled with -/

/-- The call that was given the promise. -/
def Answers (android : AndroidBase64) (cipher : KeystoreCipher Key)
    (taken : List (ShareModule Key × PromptAction)) (p : ℕ) (settlement : Settlement) : Prop :=
  ∃ before a, (before, a) ∈ taken ∧ before.promises = p ∧ Right android cipher before a settlement

/-- The load that has prepared the prompt. -/
def Prepares (android : AndroidBase64) (cipher : KeystoreCipher Key)
    (taken : List (ShareModule Key × PromptAction)) (p : ℕ) (prompt : Prompt Key) : Prop :=
  ∃ before keyId finds, (before, .loadShare keyId finds) ∈ taken ∧ before.promises = p ∧
    Reads android cipher before.stored keyId prompt

structure Answering (android : AndroidBase64) (cipher : KeystoreCipher Key)
    (taken : List (ShareModule Key × PromptAction)) (events : List (ℕ × Settlement))
    (s : ShareModule Key) : Prop where
  loading : ∀ p prompt, s.loading = some (p, prompt) → Prepares android cipher taken p prompt
  prompts : ∀ p phase prompt, s.prompts p = some (phase, prompt) →
    Prepares android cipher taken p prompt
  callback : ∀ p cleared settlement, s.callback = some ⟨some p, cleared, settlement⟩ →
    Answers android cipher taken p settlement
  events : ∀ e ∈ events, Answers android cipher taken e.1 e.2

theorem Answers.later {p : ℕ} {settlement : Settlement}
    (h : Answers android cipher taken p settlement) (next : ShareModule Key × PromptAction) :
    Answers android cipher (taken ++ [next]) p settlement := by
  obtain ⟨before, a, mem, same, right⟩ := h
  exact ⟨before, a, List.mem_append_left _ mem, same, right⟩

theorem Prepares.later {p : ℕ} {prompt : Prompt Key} (h : Prepares android cipher taken p prompt)
    (next : ShareModule Key × PromptAction) :
    Prepares android cipher (taken ++ [next]) p prompt := by
  obtain ⟨before, keyId, finds, mem, same, reads⟩ := h
  exact ⟨before, keyId, finds, List.mem_append_left _ mem, same, reads⟩

/-- What the fields hold is known, and what is emitted is right. -/
theorem Answering.next {s' : ShareModule Key} {emitted : List (ℕ × Settlement)}
    (h : Answering android cipher taken events s) (next : ShareModule Key × PromptAction)
    (loading : ∀ p prompt, s'.loading = some (p, prompt) → s.loading = some (p, prompt) ∨
      Prepares android cipher (taken ++ [next]) p prompt)
    (prompts : ∀ p phase prompt, s'.prompts p = some (phase, prompt) →
      Prepares android cipher taken p prompt)
    (callback : ∀ p cleared settlement, s'.callback = some ⟨some p, cleared, settlement⟩ →
      Answers android cipher taken p settlement)
    (emits : ∀ e ∈ emitted, Answers android cipher (taken ++ [next]) e.1 e.2) :
    Answering android cipher (taken ++ [next]) (events ++ emitted) s' where
  loading p prompt there := (loading p prompt there).elim
    (fun before => (h.loading p prompt before).later next) id
  prompts p phase prompt there := (prompts p phase prompt there).later next
  callback p cleared settlement there := (callback p cleared settlement there).later next
  events e mem := (List.mem_append.mp mem).elim (fun old => (h.events e old).later next) (emits e)

theorem answering_init (android : AndroidBase64) (cipher : KeystoreCipher Key) :
    Answering android cipher [] [] .new where
  loading _ _ there := by cases there
  prompts _ _ _ there := by cases there
  callback _ _ _ there := by cases there
  events _ mem := by cases mem

/-- The prompt of a load whose prompts are known. -/
theorem prepares_update (h : Answering android cipher taken events s) {p : ℕ}
    {phase : PromptPhase} {prompt : Prompt Key} (known : Prepares android cipher taken p prompt)
    (q : ℕ) (phase' : PromptPhase) (prompt' : Prompt Key)
    (at_ : Function.update s.prompts p (some (phase, prompt)) q = some (phase', prompt')) :
    Prepares android cipher taken q prompt' := by
  by_cases same : q = p
  · subst same
    rw [Function.update_self] at at_
    cases at_
    exact known
  · rw [Function.update_of_ne same] at at_
    exact h.prompts q phase' prompt' at_

theorem Answering.step {s' : ShareModule Key} {a : PromptAction} {emitted : List (ℕ × Settlement)}
    {flight : Option ℕ} (h : Answering android cipher taken events s) (stage : Flight s flight)
    (once : CallsBackOnce s a) (moves : Moves android cipher s a s' emitted) :
    Answering android cipher (taken ++ [(s, a)]) (events ++ emitted) s' := by
  have now : (s, a) ∈ taken ++ [(s, a)] := List.mem_append_right _ (List.mem_singleton_self _)
  cases moves with
  | answer free right encoded =>
      refine h.next _ (fun _ _ => .inl) h.prompts h.callback fun e mem => ?_
      cases List.mem_singleton.mp mem
      exact ⟨s, a, now, rfl, right⟩
  | threw stored bad =>
      exact h.next _ (fun _ _ => .inl) h.prompts h.callback fun _ mem => by cases mem
  | prepare free idle reads =>
      refine h.next _ (fun p prompt there => ?_) h.prompts h.callback fun _ mem => by cases mem
      cases there
      exact .inr ⟨s, _, _, now, rfl, reads⟩
  | post loading =>
      refine h.next _ (fun _ _ there => by cases there) ?_ h.callback fun _ mem => by cases mem
      exact prepares_update h (h.loading _ _ loading)
  | launch free posted =>
      refine h.next _ (fun _ _ => .inl) ?_ h.callback fun _ mem => by cases mem
      exact prepares_update h (h.prompts _ _ _ posted)
  | enter free at_ first right =>
      obtain ⟨_, _, pending, _⟩ := stage.asked_of_open ⟨_, _, at_, first once⟩
      have known := h.prompts _ _ _ at_
      refine h.next _ (fun _ _ => .inl) (prepares_update h known)
        (fun p cleared settlement there => ?_) fun _ mem => by cases mem
      rw [ShareModule.enter, pending] at there
      cases there
      obtain ⟨before, keyId, finds, mem, same, reads⟩ := known
      exact ⟨before, _, mem, same, right before keyId finds reads⟩
  | clear entered =>
      refine h.next _ (fun _ _ => .inl) h.prompts (fun p cleared settlement there => ?_)
        fun _ mem => by cases mem
      cases there
      exact h.callback p false _ entered
  | @settle current settlement cleared =>
      refine h.next _ (fun _ _ => .inl) h.prompts (fun _ _ _ there => by cases there) ?_
      intro e mem
      cases current with
      | none => cases mem
      | some p =>
          cases List.mem_singleton.mp mem
          exact (h.callback p true settlement cleared).later _

/-- If each prompt calls back once, a promise is settled with what is right for its own call: a load
that resolves has come to what `loadShare` reads at once in the state in which it was made, whatever
has been saved and removed since. -/
theorem promise_answers (hand : android.Lawful)
    (run : (machine android cipher).Run taken events s)
    (once : Machine.Meets CallsBackOnce taken) {e : ℕ × Settlement} (mem : e ∈ events) :
    Answers android cipher taken e.1 e.2 := by
  have all : Machine.Meets CallsBackOnce taken → Answering android cipher taken events s := by
    refine run.history_invariant (fun taken events s => Machine.Meets CallsBackOnce taken →
      Answering android cipher taken events s) ?_ ?_
    · exact fun _ => answering_init android cipher
    · intro taken events s a s' emitted before ih hstep once
      obtain ⟨past, now⟩ := (Machine.meets_append_singleton ..).mp once
      obtain ⟨flight, ledger⟩ := exists_ledger hand before past
      exact (ih past).step ledger.stage now (step_moves hstep)
  exact (all once).events e mem

/-- When neither thread is at work, the module turns loads away if and only if a prompt is open, and
if it does not, every promise has been settled exactly once. -/
theorem promises_settled (hand : android.Lawful)
    (run : (machine android cipher).Run taken events s)
    (once : Machine.Meets CallsBackOnce taken) (loading : s.loading = none)
    (callback : s.callback = none) :
    (s.pendingPromise = none ↔ ∀ p, ¬ Open s p) ∧
      (s.pendingPromise = none → (events.map Prod.fst).Perm (List.range s.promises)) := by
  obtain ⟨flight, ledger⟩ := exists_ledger hand run once
  cases ledger.stage with
  | idle _ pending quiet =>
      refine ⟨iff_of_true pending quiet, fun _ => ?_⟩
      refine (List.perm_ext_iff_of_nodup ledger.nodup List.nodup_range).mpr fun p => ?_
      have rests : ¬ Waits s none p := by
        rintro (same | ⟨_, same⟩)
        · cases same
        · cases callback.symm.trans same
      rw [ledger.settled, List.mem_range, and_iff_left rests]
  | loading busy => cases loading.symm.trans busy
  | @asked p _ pending only =>
      have busy : s.pendingPromise ≠ none := pending ▸ Option.some_ne_none p
      exact ⟨iff_of_false busy fun quiet => quiet p ((only p).mpr rfl),
        fun free => absurd free busy⟩
  | answering _ _ _ entered => cases callback.symm.trans entered

end Runs

/-! ## A share that is removed while the user is asked -/

/-- A share that can be read is prepared if no other load is under way. -/
theorem step_loadShare {s : ShareModule Key} {keyId text : String} {key : Key} {payload : Bytes}
    (free : s.loading = none) (idle : s.pendingPromise = none)
    (stored : s.stored.preferences (prefKey keyId) = some text)
    (found : s.stored.keystore (aliasFor keyId) = some key)
    (decoded : android.decode text = some payload) (long : ¬ payload.length < ivLength + 1) :
    (machine android cipher).step s (.loadShare keyId ⟨true, true, true, true⟩) =
      some ({ s with
        loading := some (s.promises, ⟨key, payload.take ivLength, payload.drop ivLength⟩)
        promises := s.promises + 1 }, []) := by
  have prepared : prepare android s keyId ⟨true, true, true, true⟩ =
      some (.ok ⟨key, payload.take ivLength, payload.drop ivLength⟩) := by
    simp [prepare, stored, idle, found, decoded, long]
  change step android cipher s (.loadShare keyId ⟨true, true, true, true⟩) = _
  simp only [step, free, prepared, Option.isSome_none, Bool.false_eq_true, if_false]

/-- The share is saved, its load is prepared, and it is removed before the user authenticates. -/
theorem removed_run : ∃ taken s,
    (machine sampleAndroid sampleKeystoreCipher).Run taken
      [(0, .resolved none), (2, .resolved none), (1, .resolved (some (Base64.encode [1])))] s ∧
    Machine.Meets CallsBackOnce taken ∧ s.promises = 3 ∧ s.loading = none ∧ s.callback = none ∧
      s.pendingPromise = none := by
  have saved := (Machine.Run.start (M := machine sampleAndroid sampleKeystoreCipher)).next
    (a := .saveShare 5 "k" (Base64.encode [1]) ⟨true, true, true⟩) rfl
  have loads := saved.next (step_loadShare rfl rfl (Function.update_self ..)
    (Function.update_self ..) (sampleAndroid_lawful.decode _) (by decide))
  have settled := (((((loads.next (a := .post) rfl).next
    (a := .removeShare "k" true) rfl).next
    (a := .run 1 true) rfl).next
    (a := .authenticated 1 (.succeeded true true)) rfl).next
    (a := .clear) rfl).next (a := .settle) rfl
  refine ⟨_, _, settled, ?_, rfl, rfl, rfl, rfl⟩
  simp only [Machine.meets_append_singleton, Machine.meets_nil]
  exact ⟨⟨⟨⟨⟨⟨⟨⟨trivial, trivial⟩, trivial⟩, trivial⟩, trivial⟩, trivial⟩,
    fun prompt answered => by cases answered⟩, trivial⟩, trivial⟩

theorem promise_answers_removed : ∃ taken s,
    (machine sampleAndroid sampleKeystoreCipher).Run taken
      [(0, .resolved none), (2, .resolved none), (1, .resolved (some (Base64.encode [1])))] s ∧
    Answers sampleAndroid sampleKeystoreCipher taken 1
      (.resolved (some (Base64.encode [1]))) := by
  obtain ⟨taken, s, run, once, _⟩ := removed_run
  exact ⟨taken, s, run, promise_answers (e := (1, .resolved (some (Base64.encode [1]))))
    sampleAndroid_lawful run once (by simp)⟩

theorem promises_settled_removed : ∃ taken events s,
    (machine sampleAndroid sampleKeystoreCipher).Run taken events s ∧ s.promises = 3 ∧
      (events.map Prod.fst).Perm (List.range s.promises) := by
  obtain ⟨taken, s, run, once, promises, loading, callback, free⟩ := removed_run
  exact ⟨taken, _, s, run, promises,
    (promises_settled sampleAndroid_lawful run once loading callback).2 free⟩

end MaanyMpc.SharePrompts
